import Gridshift.RephaseFrame
import Gridshift.LastWrite

namespace Gridshift
open LastWrite
set_option autoImplicit true

/-- One attempt at an update, and the cluster that it meets. -/
structure Attempt (Calendar : Type) where
  input : UpdateWindowsInput
  cluster : Cluster Calendar

/-- The cluster as the attempt finds it, with the given spec stored for the schedule. -/
def Attempt.storing (a : Attempt Calendar) (s : Option (ScheduleSpec Calendar)) :
    Cluster Calendar :=
  { a.cluster with
    describe := fun ref => (a.cluster.describe ref).map fun desc => { desc with spec := s } }

def Attempt.perform (sdk : Sdk Calendar) (tzdb : String → Option Tz) (a : Attempt Calendar)
    (s : Option (ScheduleSpec Calendar)) :
    Except String (UpdateOutcome × Option (ScheduleSpec Calendar)) :=
  updateScheduleWindows sdk (a.storing s) tzdb a.input

/-- The spec that an attempt writes over another; a failed one writes nothing. -/
def Attempt.written (sdk : Sdk Calendar) (tzdb : String → Option Tz) (a : Attempt Calendar)
    (s : Option (ScheduleSpec Calendar)) : Option (Option (ScheduleSpec Calendar)) :=
  ((a.perform sdk tzdb s).toOption.bind Prod.snd).map some

section Stable
variable {s : Option (ScheduleSpec Calendar)}

theorem tsToSt_range {st : Int} (h : tsToSt secs nanos = .ok (some st)) :
    0 ≤ st ∧ st < 2 ^ 63 * 10 ^ 9 := by
  simp only [tsToSt] at h
  split at h
  · cases h
  · split at h
    · cases h
      omega
    · cases h

theorem tsToSt_ofSystemTime {st : Int} (h0 : 0 ≤ st) (hmax : st < 2 ^ 63 * 10 ^ 9) :
    tsToSt (ofSystemTime st).seconds (ofSystemTime st).nanos = .ok (some st) := by
  have hsecs : ¬ st / 10 ^ 9 < 0 := by omega
  have hsum : st / 10 ^ 9 * 10 ^ 9 + max (st % 10 ^ 9) 0 = st := by omega
  simp only [ofSystemTime, tsToSt, hsum]
  rw [if_neg hsecs, if_pos hmax]

/-- A time that the update has written reads back as it was. -/
theorem time_stable {time : Option ProtoTimestamp}
    (h : time.elim (.ok none) (fun ts => tsToSt ts.seconds ts.nanos) = .ok st) :
    (st.map ofSystemTime).elim (.ok none) (fun ts => tsToSt ts.seconds ts.nanos) = .ok st := by
  cases st with
  | none => rfl
  | some st =>
    cases time with
    | none => cases h
    | some ts =>
      obtain ⟨h0, hmax⟩ := tsToSt_range h
      exact tsToSt_ofSystemTime h0 hmax

theorem jitter_stable (jitter : Option ProtoDuration) :
    ((jitter.map fun d => (max d.seconds 0).toNat).map ofSecs).map
      (fun d => (max d.seconds 0).toNat) = jitter.map fun d => (max d.seconds 0).toNat := by
  cases jitter with
  | none => rfl
  | some d =>
    simp only [Option.map_some, ofSecs, Option.some.injEq]
    omega

theorem rephaseInterval_stable (ts₁ ts₂ : Nat) (iv : IntervalSpec) :
    ((rephaseInterval ts₁ iv).bind fun b =>
      rephaseInterval ts₂ ⟨some (ofSecs b.every), b.phase.map ofSecs⟩) =
        rephaseInterval ts₂ iv := by
  rw [rephaseInterval_eq, rephaseInterval_eq]
  cases iv.interval with
  | none => rfl
  | some d => simp [rephaseInterval_eq, ofSecs]

theorem intervals_stable (ts₁ ts₂ : Nat) (interval : List IntervalSpec) :
    ((interval.filterMap (rephaseInterval ts₁)).map fun b =>
        (⟨some (ofSecs b.every), b.phase.map ofSecs⟩ : IntervalSpec)).filterMap
      (rephaseInterval ts₂) = interval.filterMap (rephaseInterval ts₂) := by
  rw [List.filterMap_map, List.filterMap_filterMap]
  exact List.filterMap_congr fun iv _ => rephaseInterval_stable ts₁ ts₂ iv

theorem lengths_stable (ts₁ ts₂ : Nat) (interval : List IntervalSpec) :
    ((interval.filterMap (rephaseInterval ts₁)).map fun b =>
        (⟨some (ofSecs b.every), none⟩ : IntervalSpec)) =
      (interval.filterMap (rephaseInterval ts₂)).map fun b => ⟨some (ofSecs b.every), none⟩ := by
  rw [List.map_filterMap, List.map_filterMap]
  apply List.filterMap_congr
  intro iv _
  simp only [rephaseInterval_eq, Option.map_map, Function.comp_def]

/-- A second update sees nothing of the first: it writes what it would write over the original. -/
theorem rephase_rephase (h : rephase sdk ts₁ s = .ok s₁) (ts₂ : Nat) :
    rephase sdk ts₂ (some s₁) = rephase sdk ts₂ s := by
  obtain ⟨st, et, hst, het, rfl⟩ := rephase_eq_ok_iff.1 h
  have hwrite : rephase sdk ts₂ s = .ok _ := rephase_eq_ok_iff.2 ⟨st, et, hst, het, rfl⟩
  rw [hwrite]
  refine rephase_eq_ok_iff.2 ⟨st, et, time_stable hst, time_stable het, ?_⟩
  congr 1
  cases s with
  | none => rfl
  | some spec =>
    simp only [BuiltSpec.toProto, Option.map_some, Option.getD_some, Option.bind_some,
      intervals_stable, jitter_stable]

theorem withoutPhases_rephase (h₁ : rephase sdk ts₁ s = .ok s₁) (h₂ : rephase sdk ts₂ s = .ok s₂) :
    s₁.withoutPhases = s₂.withoutPhases := by
  obtain ⟨st, et, hst, het, rfl⟩ := rephase_eq_ok_iff.1 h₁
  obtain ⟨st', et', hst', het', rfl⟩ := rephase_eq_ok_iff.1 h₂
  cases hst.symm.trans hst'
  cases het.symm.trans het'
  cases s with
  | none => rfl
  | some spec =>
    simp only [BuiltSpec.toProto, ScheduleSpec.withoutPhases, Option.map_some, Option.getD_some,
      List.map_map, Function.comp_def, lengths_stable ts₁ ts₂]

end Stable

section Attempts
variable {sdk : Sdk Calendar} {tzdb : String → Option Tz} {s s' : Option (ScheduleSpec Calendar)}

/-- An attempt sees of the stored spec only what the closure makes of it. -/
theorem perform_congr (h : ∀ ts, rephase sdk ts s' = rephase sdk ts s) (a : Attempt Calendar) :
    a.perform sdk tzdb s' = a.perform sdk tzdb s := by
  simp only [Attempt.perform, updateScheduleWindows, Attempt.storing]
  cases a.cluster.describe ⟨a.input.namespace, a.input.scheduleId⟩ with
  | error e => rfl
  | ok desc => simp only [Except.map, h]

theorem exists_rephase_of_written {a : Attempt Calendar} (h : a.written sdk tzdb s = some s') :
    ∃ ts s₁, s' = some s₁ ∧ rephase sdk ts s = .ok s₁ := by
  obtain ⟨s₁, hwritten, rfl⟩ := Option.map_eq_some_iff.1 h
  obtain ⟨⟨outcome, written⟩, hok, rfl⟩ := Option.bind_eq_some_iff.1 hwritten
  have hperform : a.perform sdk tzdb s = .ok (outcome, some s₁) := by
    cases hp : a.perform sdk tzdb s with
    | error e =>
      rw [hp] at hok
      cases hok
    | ok r =>
      rw [hp] at hok
      cases hok
      rfl
  obtain ⟨-, -, tz, -, ndt, -, desc, hdesc, hwrite, -⟩ :=
    updateScheduleWindows_some_iff.1 hperform
  cases hd : a.cluster.describe ⟨a.input.namespace, a.input.scheduleId⟩ with
  | error e =>
    simp only [Attempt.storing, hd, Except.map, reduceCtorEq] at hdesc
  | ok d =>
    simp only [Attempt.storing, hd, Except.map, Except.ok.injEq] at hdesc
    subst hdesc
    exact ⟨_, s₁, rfl, hwrite⟩

theorem perform_of_written {a : Attempt Calendar} (h : a.written sdk tzdb s = some s')
    (b : Attempt Calendar) : b.perform sdk tzdb s' = b.perform sdk tzdb s := by
  obtain ⟨ts, s₁, rfl, hwrite⟩ := exists_rephase_of_written h
  exact perform_congr (rephase_rephase hwrite) b

theorem written_overwrites (sdk : Sdk Calendar) (tzdb : String → Option Tz) :
    Overwrites (Attempt.written sdk tzdb) := by
  intro a s s' h b
  rw [Attempt.written, perform_of_written h b]
  rfl

end Attempts

/-- What any attempts leave behind does not show in what a further one does. The spec that they
leave is the one that the last writing attempt makes of the original, and from the first that
writes it keeps all but its phases. -/
theorem updates_compose (sdk : Sdk Calendar) (tzdb : String → Option Tz)
    (s : Option (ScheduleSpec Calendar)) (attempts : List (Attempt Calendar)) :
    (∀ ts₁ ts₂ s₁, rephase sdk ts₁ s = .ok s₁ → rephase sdk ts₂ (some s₁) = rephase sdk ts₂ s) ∧
    (∀ a : Attempt Calendar,
      a.perform sdk tzdb (run (Attempt.written sdk tzdb) s attempts) = a.perform sdk tzdb s) ∧
    run (Attempt.written sdk tzdb) s attempts =
      (attempts.filterMap fun a => a.written sdk tzdb s).getLast?.getD s ∧
    ∀ a ∈ attempts, ∀ s₁ : ScheduleSpec Calendar, a.written sdk tzdb s = some (some s₁) →
      ∃ s₂, run (Attempt.written sdk tzdb) s attempts = some s₂ ∧
        s₂.withoutPhases = s₁.withoutPhases := by
  have hlast := (written_overwrites sdk tzdb).run_eq s attempts
  refine ⟨fun ts₁ ts₂ s₁ h => rephase_rephase h ts₂, ?_, hlast, ?_⟩
  · intro a
    refine run_induction (P := fun s' => a.perform sdk tzdb s' = a.perform sdk tzdb s) rfl ?_ _
    intro b s' s'' h hwritten
    rw [perform_of_written hwritten a, h]
  · intro a ha s₁ h₁
    have hmem : some s₁ ∈ attempts.filterMap fun a => a.written sdk tzdb s :=
      List.mem_filterMap.2 ⟨a, ha, h₁⟩
    obtain ⟨s', hs'⟩ := Option.isSome_iff_exists.1
      (List.getLast?_isSome.2 (List.ne_nil_of_mem hmem))
    obtain ⟨b, -, hb⟩ := List.mem_filterMap.1 (List.mem_of_getLast? hs')
    obtain ⟨ts₂, s₂, rfl, h₂⟩ := exists_rephase_of_written hb
    obtain ⟨ts₁, _, ⟨⟩, h₁⟩ := exists_rephase_of_written h₁
    refine ⟨s₂, by rw [hlast, hs', Option.getD_some], withoutPhases_rephase h₂ h₁⟩

section Sample

def oddSpec : ScheduleSpec String where
  interval := [⟨some ⟨86400, 7⟩, some ⟨7200, 0⟩⟩, ⟨none, none⟩, ⟨some ⟨-5, 0⟩, none⟩]
  calendar := ["0 12 * * MON"]
  excludeCalendar := []
  jitter := some ⟨-30, 0⟩
  startTime := some ⟨1704067200, 1500000000⟩
  endTime := some ⟨-1, 0⟩
  timezoneName := "Europe/London"

/-- An attempt that moves the schedule to an hour of 2 January 2024. -/
def movingTo (hour : Nat) : Attempt String :=
  ⟨⟨"default", "backup", ⟨19724, hour, 0⟩, "UTC", 86400⟩, serving ⟨[], [], none⟩⟩

def alwaysFixed : String → Option Tz := fun _ => some (WallClock.Zone.fixed 0)

/-- After two attempts that land, a third does what it would have done over the first spec, and
only the second one's phases are left. -/
theorem updates_compose_oddSpec :
    ∃ s₁ s₂, (movingTo 2).written (.plain String) alwaysFixed (some oddSpec) = some (some s₁) ∧
      (movingTo 5).written (.plain String) alwaysFixed (some oddSpec) = some (some s₂) ∧
      run (Attempt.written (.plain String) alwaysFixed) (some oddSpec) [movingTo 2, movingTo 5] =
        some s₂ ∧
      s₂.withoutPhases = s₁.withoutPhases ∧
      (movingTo 7).perform (.plain String) alwaysFixed (some s₂) =
        (movingTo 7).perform (.plain String) alwaysFixed (some oddSpec) := by
  obtain ⟨-, hperform, hlast, hkeep⟩ := updates_compose (.plain String) alwaysFixed (some oddSpec)
    [movingTo 2, movingTo 5]
  have hfirst : (movingTo 2).written (.plain String) alwaysFixed (some oddSpec) =
    some (some _) := rfl
  have hsecond : (movingTo 5).written (.plain String) alwaysFixed (some oddSpec) =
    some (some _) := rfl
  obtain ⟨s₂, hrun, hphases⟩ := hkeep (movingTo 2) List.mem_cons_self _ hfirst
  have hwritten := hlast
  rw [hrun, List.filterMap_cons_some
      (f := fun a : Attempt String => a.written (.plain String) alwaysFixed (some oddSpec)) hfirst,
    List.filterMap_cons_some
      (f := fun a : Attempt String => a.written (.plain String) alwaysFixed (some oddSpec))
      hsecond] at hwritten
  cases hwritten
  exact ⟨_, _, hfirst, hsecond, hrun, hphases, by rw [← hrun, hperform]⟩

end Sample

end Gridshift
