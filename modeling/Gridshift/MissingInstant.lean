import Gridshift.AnsweredPlan
import Gridshift.Firing

namespace Gridshift
open IntervalGrid
set_option autoImplicit true

/-- The instant that a window's wall-clock reading denotes, where it denotes one. -/
def windowInstant (tz : Tz) (w : ChosenWindow) : Option Int :=
  (andHmsOpt w.date w.hour w.minute).bind tz.earliest

/-- An update to a window writes phases congruent to an instant, whatever spec it finds. -/
def WritesPhaseOf (sdk : Sdk Calendar) (tz : Tz) (w : ChosenWindow) (U : Int) : Prop :=
  ∀ cluster tzdb input spec', tzdb input.timezone = some tz → input.window = w →
    updateScheduleWindows sdk cluster tzdb input = .ok (.updated, some spec') →
      ∀ iv ∈ spec'.interval, ∀ every ∈ iv.interval, 0 < every.seconds →
        ∀ phase ∈ iv.phase, every.seconds ∣ phase.seconds - U

/-- The calls that an update makes succeed, and the times of the spec it finds can be read. -/
structure Unhindered (sdk : Sdk Calendar) (cluster : Cluster Calendar) (tzdb : String → Option Tz)
    (input : UpdateWindowsInput) (tz : Tz) (spec' : ScheduleSpec Calendar) : Prop where
  client : cluster.clientFor input.namespace = .ok ()
  zone : tzdb input.timezone = some tz
  found : ∃ desc, cluster.describe ⟨input.namespace, input.scheduleId⟩ = .ok desc ∧
    rephase sdk (windowTs tz input.window) desc.spec = .ok spec'
  accepted : cluster.accept ⟨input.namespace, input.scheduleId⟩ spec' = .ok ()

theorem slotEpoch_eq (w : PricedWindow) (tz : Tz) :
    slotEpoch w tz = (windowInstant tz w.toChosen).getD i64Min := by
  simp only [slotEpoch, windowInstant, PricedWindow.toChosen]
  cases andHmsOpt w.date w.hour w.minute <;> rfl

theorem windowTs_eq (tz : Tz) (w : ChosenWindow) :
    windowTs tz w = ((windowInstant tz w).bind fun ts =>
      if 0 ≤ ts then some ts.toNat else none).getD 0 := by
  simp only [windowTs, windowInstant]
  cases andHmsOpt w.date w.hour w.minute <;> rfl

theorem windowTs_eq_iff (h : windowInstant tz w = some U) : (windowTs tz w : Int) = U ↔ 0 ≤ U := by
  rw [windowTs_eq, h, Option.bind_some]
  split
  · rename_i h0
    rw [Option.getD_some]
    omega
  · rename_i h0
    rw [Option.getD_none]
    omega

theorem windowTs_of_missing (h : ∀ U, windowInstant tz w = some U → U < 0) : windowTs tz w = 0 := by
  rw [windowTs_eq]
  cases hU : windowInstant tz w with
  | none => rfl
  | some U => rw [Option.bind_some, if_neg (Int.not_le.2 (h U hU)), Option.getD_none]

def oneInterval (Calendar : Type) (everySecs : Nat) : ScheduleSpec Calendar :=
  ⟨[⟨some (ofSecs everySecs), none⟩], [], [], none, none, none, ""⟩

theorem dvd_phaseOf_sub {n : Nat} (hpos : 0 < n) (ts : Nat) : (n : Int) ∣ phaseOf ts n - ts :=
  onGrid_iff_dvd.1 ((phaseOf_onGrid hpos).1 (OnGrid.self _ _))

theorem windowTs_of_andHmsOpt (h : andHmsOpt w.date w.hour w.minute = some ndt) :
    windowTs tz w = utcTs tz ndt := by
  rw [windowTs, h, Option.map_some, Option.getD_some]

theorem dvd_interval_rephase {spec : Option (ScheduleSpec Calendar)} {ts : Nat}
    (hwrite : rephase sdk ts spec = .ok spec') (hiv : iv ∈ spec'.interval)
    (hevery : every ∈ iv.interval) (hpos : 0 < every.seconds) (hphase : phase ∈ iv.phase) :
    every.seconds ∣ phase.seconds - ts := by
  cases spec with
  | none =>
    obtain ⟨st, et, -, -, rfl⟩ := rephase_eq_ok_iff.1 hwrite
    cases hiv
  | some spec =>
    rw [interval_rephase hwrite] at hiv
    obtain ⟨n, -, rfl⟩ := List.mem_map.1 hiv
    cases hevery
    cases hphase
    exact dvd_phaseOf_sub (Int.natCast_pos.1 hpos) ts

theorem WritesPhaseOf.eq {sdk : Sdk Calendar} (hclock : andHmsOpt w.date w.hour w.minute = some ndt)
    (h : WritesPhaseOf sdk tz w U) : (windowTs tz w : Int) = U := by
  -- an interval longer than the difference tells the two apart
  rw [windowTs_of_andHmsOpt hclock]
  let ts := utcTs tz ndt
  let n := (ts - U).natAbs + 1
  have hsingle : (oneInterval Calendar n).SingleInterval n := ⟨none, rfl⟩
  have hwrite : rephase sdk ts (some (oneInterval Calendar n)) = .ok _ :=
    rephase_some_eq_ok_iff.2 ⟨none, none, rfl, rfl, rfl⟩
  have hupdate : updateScheduleWindows sdk (serving ⟨[], [], some (oneInterval Calendar n)⟩)
      (fun _ => some tz) ⟨"", "", w, "", 0⟩ = .ok (.updated, some _) :=
    (updateScheduleWindows_eq rfl rfl hclock rfl fun _ => rfl).trans
      (congrArg (Except.map fun spec => (UpdateOutcome.updated, some spec)) hwrite)
  have hinterval := interval_rephase hwrite
  rw [hsingle.everySecs, List.map_singleton] at hinterval
  have hU : (n : Int) ∣ phaseOf ts n - U :=
    h _ _ _ _ rfl rfl hupdate _ (hinterval ▸ List.mem_singleton_self _) _ rfl
      (Int.natCast_pos.2 (Nat.succ_pos _)) _ rfl
  have hdvd := Int.dvd_sub hU (dvd_phaseOf_sub (Nat.succ_pos _) ts)
  rw [sub_sub_sub_cancel_left] at hdvd
  have hlt : |(ts : Int) - U| < n := by
    rw [Int.abs_eq_natAbs]
    exact Int.ofNat_lt.2 (Nat.lt_succ_self _)
  exact sub_eq_zero.1 (Int.eq_zero_of_abs_lt_dvd hdvd hlt)

/-- Phases follow an instant, at every length of an interval, only if they are taken from it. -/
theorem writesPhaseOf_iff (sdk : Sdk Calendar)
    (hclock : andHmsOpt w.date w.hour w.minute = some ndt) :
    WritesPhaseOf sdk tz w U ↔ (windowTs tz w : Int) = U := by
  constructor
  · exact WritesPhaseOf.eq hclock
  · intro hts cluster tzdb input spec' hzone hw hupdate iv hiv every hevery hpos phase hphase
    obtain ⟨-, -, tz', htz', ndt', hndt', desc, -, hwrite, -⟩ :=
      updateScheduleWindows_some_iff.1 hupdate
    cases hzone.symm.trans htz'
    subst hw
    rw [← windowTs_of_andHmsOpt hndt'] at hwrite
    exact hts ▸ dvd_interval_rephase hwrite hiv hevery hpos hphase

/-- An assignment with one job moved to another legal start. -/
def Assignment.move (a : Assignment jobs nSlots) (j : Fin jobs.length)
    (ht : (jobs.get j).LegalStart nSlots t) : Assignment jobs nSlots where
  start := Function.update a.start j t
  legal i := by
    by_cases hi : i = j
    · subst hi
      rwa [Function.update_self]
    · rw [Function.update_of_ne hi]
      exact a.legal i

section Legal
variable {schedules : List ScheduleInfo} {scheduleDurations : ScheduleRef → Option Nat}
  {priced : List PricedWindow} {tz : Tz} {slotMins : Nat}

/-- Any legal start of any schedule is the start that some answer within the constraints picks. -/
theorem exists_answer_at (hslot : 1 ≤ slotMins) (hs : s ∈ schedules) {t : Fin priced.length}
    (ht : (jobOf scheduleDurations priced tz slotMins s).LegalStart priced.length t) :
    ∃ (p : AnsweredPlan schedules scheduleDurations priced tz slotMins)
        (as : List ScheduleAssignment), p.assignments = some as ∧
      ⟨s.ref, (priced.get t).toChosen, s.intervalSecs⟩ ∈ as := by
  have hfit : JobsFit (placedJobs schedules scheduleDurations priced tz slotMins) priced.length :=
    placedJobs_fit
  have hreach : Reaches scheduleDurations priced tz slotMins s :=
    (Nat.add_le_add_right ht.1 _).trans ht.2
  obtain ⟨j, hj⟩ := List.get_of_mem (mem_placedJobs.2 ⟨s, hs, hreach, rfl⟩)
  rw [← hj] at ht
  have hstart := AnsweredPlan.start_ofAssignment (hfit.earliest.move j ht)
  refine ⟨_, _, AnsweredPlan.assignments_eq _ hslot hstart, List.mem_map.2 ⟨j, List.mem_finRange j, ?_⟩⟩
  have hmoved : (⟨(hfit.earliest.move j ht).start j, placedJobs_fit.lt_of_legal j
      ((hfit.earliest.move j ht).legal j)⟩ : Fin priced.length) = t :=
    Fin.ext (Function.update_self _ _ _)
  rw [hmoved]
  exact hj ▸ rfl

end Legal

theorem exists_andHmsOpt (h : windowInstant tz w = some U) :
    ∃ ndt, andHmsOpt w.date w.hour w.minute = some ndt := by
  obtain ⟨ndt, hndt, -⟩ := Option.bind_eq_some_iff.1 h
  exact ⟨ndt, hndt⟩

theorem Unhindered.update_eq (h : Unhindered sdk cluster tzdb input tz spec')
    (hclock : andHmsOpt input.window.date input.window.hour input.window.minute = some ndt) :
    updateScheduleWindows sdk cluster tzdb input = .ok (.updated, some spec') := by
  obtain ⟨desc, hdesc, hwrite⟩ := h.found
  rw [windowTs_of_andHmsOpt hclock] at hwrite
  exact updateScheduleWindows_some_iff.2
    ⟨rfl, h.client, tz, h.zone, ndt, hclock, desc, hdesc, hwrite, h.accepted⟩

theorem Unhindered.update_fails_iff (h : Unhindered sdk cluster tzdb input tz spec') :
    (∃ e, updateScheduleWindows sdk cluster tzdb input = .error e) ↔
      andHmsOpt input.window.date input.window.hour input.window.minute = none := by
  constructor
  · rintro ⟨e, he⟩
    cases hclock : andHmsOpt input.window.date input.window.hour input.window.minute with
    | none => rfl
    | some ndt => cases he.symm.trans (h.update_eq hclock)
  · intro hclock
    cases hupdate : updateScheduleWindows sdk cluster tzdb input with
    | error e => exact ⟨e, rfl⟩
    | ok r =>
      simp only [updateScheduleWindows, h.client, h.zone, hclock, Option.elim_some,
        Option.elim_none, bind, Except.bind, reduceCtorEq] at hupdate

theorem Unhindered.missing_fails_iff (h : Unhindered sdk cluster tzdb input tz spec') :
    ((∀ U, windowInstant tz input.window = some U → U < 0) →
        ∃ e, updateScheduleWindows sdk cluster tzdb input = .error e) ↔
      andHmsOpt input.window.date input.window.hour input.window.minute = none ∨
        ∃ U, windowInstant tz input.window = some U ∧ 0 ≤ U := by
  rw [h.update_fails_iff]
  constructor
  · intro hfails
    by_cases hU : ∃ U, windowInstant tz input.window = some U ∧ 0 ≤ U
    · exact .inr hU
    · exact .inl (hfails fun U hwindow => Int.not_le.1 fun h0 => hU ⟨U, hwindow, h0⟩)
  · intro hcond hmissing
    rcases hcond with hclock | ⟨U, hU, h0⟩
    · exact hclock
    · exact absurd h0 (Int.not_le.2 (hmissing U hU))

/-- All that is planned denotes an instant, and is written as planned, exactly when every slot at
which a schedule may start denotes one from the epoch on. An update to a window without such an
instant fails exactly when its reading is not on the clock. -/
theorem plan_instants_iff (sdk : Sdk Calendar) (schedules : List ScheduleInfo)
    (scheduleDurations : ScheduleRef → Option Nat) (priced : List PricedWindow) (tz : Tz)
    (slotMins : Nat) (hslot : 1 ≤ slotMins) :
    ((∀ (p : AnsweredPlan schedules scheduleDurations priced tz slotMins)
        (as : List ScheduleAssignment), p.assignments = some as →
          ∀ a ∈ as, ∃ U, windowInstant tz a.window = some U ∧ WritesPhaseOf sdk tz a.window U) ↔
      ∀ s ∈ schedules, ∀ t : Fin priced.length,
        (jobOf scheduleDurations priced tz slotMins s).LegalStart priced.length t →
          ∃ U, windowInstant tz (priced.get t).toChosen = some U ∧ 0 ≤ U) ∧
    ∀ cluster tzdb input spec', Unhindered sdk cluster tzdb input tz spec' →
      (((∀ U, windowInstant tz input.window = some U → U < 0) →
          ∃ e, updateScheduleWindows sdk cluster tzdb input = .error e) ↔
        andHmsOpt input.window.date input.window.hour input.window.minute = none ∨
          ∃ U, windowInstant tz input.window = some U ∧ 0 ≤ U) := by
  refine ⟨⟨?_, ?_⟩, fun _ _ _ _ h => h.missing_fails_iff⟩
  · intro h s hs t ht
    obtain ⟨p, as, has, ha⟩ := exists_answer_at hslot hs ht
    obtain ⟨U, hU, hphase⟩ := h p as has _ ha
    obtain ⟨ndt, hclock⟩ := exists_andHmsOpt hU
    exact ⟨U, hU, (windowTs_eq_iff hU).1 ((writesPhaseOf_iff sdk hclock).1 hphase)⟩
  · intro h p as has a ha
    obtain ⟨s, -, hstart⟩ := p.exists_assignment
    cases has.symm.trans (p.assignments_eq hslot hstart)
    obtain ⟨j, -, rfl⟩ := List.mem_map.1 ha
    obtain ⟨s', hs', -, hj⟩ := mem_placedJobs.1 (List.getElem_mem j.isLt)
    have hlegal := s.legal j
    rw [List.get_eq_getElem, ← hj] at hlegal
    obtain ⟨U, hU, h0⟩ := h s' hs' ⟨s.start j, p.fit.lt_of_legal j (s.legal j)⟩ hlegal
    obtain ⟨ndt, hclock⟩ := exists_andHmsOpt hU
    exact ⟨U, hU, (writesPhaseOf_iff sdk hclock).2 ((windowTs_eq_iff hU).2 h0)⟩

section Sample

/-- London's clocks skip the hour from 01:00 on 31 March 2024. -/
def skippedSlot : PricedWindow := ⟨19813, 1, 0, 5⟩

/-- A schedule that has never fired is given the skipped slot, and the update writes phase 0. -/
theorem plan_picks_skipped_slot :
    windowInstant london skippedSlot.toChosen = none ∧ slotEpoch skippedSlot london = i64Min ∧
    (∃ (p : AnsweredPlan [unfired] (fun _ => none) [skippedSlot] london 30)
        (as : List ScheduleAssignment), p.assignments = some as ∧
      ⟨unfired.ref, skippedSlot.toChosen, 86400⟩ ∈ as) ∧
    ∃ spec', updateScheduleWindows (.plain String) (serving ⟨[], [], some (oneInterval _ 86400)⟩)
        (fun _ => some london) ⟨"ns", "a", skippedSlot.toChosen, "Europe/London", 86400⟩ =
          .ok (.updated, some spec') ∧
      spec'.interval = [⟨some (ofSecs 86400), some (ofSecs 0)⟩] := by
  have hs : unfired ∈ [unfired] := List.mem_singleton_self _
  have hlegal : (jobOf (fun _ => none) [skippedSlot] london 30 unfired).LegalStart 1 0 := by decide
  have hslot : 1 ≤ 30 := by decide
  have hmissing : windowInstant london skippedSlot.toChosen = none := by decide
  have hepoch : slotEpoch skippedSlot london = i64Min := by
    rw [slotEpoch_eq, hmissing, Option.getD_none]
  exact ⟨hmissing, hepoch, exists_answer_at (t := 0) hslot hs hlegal, _, rfl, by decide⟩

theorem plan_instants_iff_sample :
    ∃ (p : AnsweredPlan [unfired] (fun _ => none) samplePool (WallClock.Zone.fixed 0) 30)
        (as : List ScheduleAssignment), p.assignments = some as ∧ as ≠ [] ∧
      ∀ a ∈ as, ∃ U, windowInstant (WallClock.Zone.fixed 0) a.window = some U ∧
        WritesPhaseOf (.plain String) (WallClock.Zone.fixed 0) a.window U := by
  have hs : unfired ∈ [unfired] := List.mem_singleton_self _
  let first : Fin samplePool.length := ⟨0, by decide⟩
  have hlegal : (jobOf (fun _ => none) samplePool (WallClock.Zone.fixed 0) 30 unfired).LegalStart
      samplePool.length first := by decide
  have hslot : 1 ≤ 30 := by decide
  obtain ⟨p, as, has, ha⟩ := exists_answer_at hslot hs hlegal
  refine ⟨p, as, has, List.ne_nil_of_mem ha, ?_⟩
  apply (plan_instants_iff (.plain String) [unfired] (fun _ => none) samplePool
    (WallClock.Zone.fixed 0) 30 hslot).1.2 ?_ p as has
  intro s hs t _
  fin_cases t
  · exact ⟨0, by decide, by decide⟩
  · exact ⟨1800, by decide, by decide⟩

end Sample

end Gridshift
