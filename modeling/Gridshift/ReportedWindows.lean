import Gridshift.MissingInstant
import Gridshift.Workflow

namespace Gridshift
open IntervalGrid
set_option autoImplicit true

/-- The date, hour and minute that a wall clock shows at a reading. -/
def windowAt (l : Int) : ChosenWindow := ⟨dateOf l, hourOf l, minuteOf l⟩

def localWindow (tz : Tz) (v : Int) : ChosenWindow := windowAt (tz.toLocal v)

def firesPerDay (intervalSecs : Nat) : Nat := max (secsPerDay / intervalSecs) 1

/-- The rewritten spec fires `i` reported intervals after the window: one of its own intervals goes
into that time, or into the whole time since the epoch where the window's phase is none. -/
def GridAgrees (spec : Option (ScheduleSpec Calendar)) (intervalSecs : Nat) (U : Int)
    (i : Nat) : Prop :=
  ∃ old ∈ spec, ∃ every ∈ old.everySecs,
    if 0 ≤ U ∧ 0 < every then (every : Int) ∣ i * intervalSecs
    else (every : Int) ∣ U + i * intervalSecs

/-- The `i`-th reported window shows the `i`-th firing: the rewritten spec fires then, and the
seconds that the report drops, with the change of the clock since, stay within its minute. -/
def ReportAgrees (tz : Tz) (spec : Option (ScheduleSpec Calendar)) (intervalSecs : Nat) (U : Int)
    (i : Nat) : Prop :=
  GridAgrees spec intervalSecs U i ∧
  let drift := i * (intervalSecs % 60 : Nat) + (tz.offset (U + i * intervalSecs) - tz.offset U)
  0 ≤ drift ∧ drift < 60

theorem andHmsOpt_windowAt (l : Int) :
    andHmsOpt (windowAt l).date (windowAt l).hour (windowAt l).minute = some (l - l % 60) :=
  andHmsOpt_parts l

theorem windowAt_eq_iff : windowAt l = windowAt l' ↔ l / 60 = l' / 60 := by
  constructor
  · intro h
    have hreading := andHmsOpt_windowAt l
    rw [h, andHmsOpt_windowAt, Option.some.injEq] at hreading
    omega
  · intro h
    have hdate : dateOf l = dateOf l' := show (l / 86400 : Int) = l' / 86400 by omega
    have hhour : hourOf l = hourOf l' := congrArg Int.toNat (by omega)
    have hminute : minuteOf l = minuteOf l' := congrArg Int.toNat (by omega)
    rw [windowAt, windowAt, hdate, hhour, hminute]

theorem andHmsOpt_eq_some_iff {date l : Int} :
    andHmsOpt date hour minute = some l ↔
      (hour < 24 ∧ minute < 60) ∧ date * 86400 + hour * 3600 + minute * 60 = l := by
  simp only [andHmsOpt, Option.ite_none_right_eq_some, Option.some.injEq]

theorem mul_lt_day (hpos : 1 ≤ intervalSecs) (hi : i < firesPerDay intervalSecs) :
    i * intervalSecs < 86400 := by
  rw [firesPerDay, secsPerDay, lt_max_iff] at hi
  rcases hi with hi | hi
  · have hle := Nat.mul_le_mul_right intervalSecs (Nat.succ_le_of_lt hi)
    have hday := Nat.div_mul_le_self 86400 intervalSecs
    rw [Nat.succ_mul] at hle
    omega
  · rw [Nat.lt_one_iff.1 hi]
    omega

/-- The report's windows, in steps of whole minutes from a reading on. -/
def windowsFrom (intervalSecs : Nat) (ndt : Int) : List ChosenWindow :=
  (List.range (firesPerDay intervalSecs)).map fun i : Nat =>
    windowAt (ndt + i * (intervalSecs / 60 : Nat) * 60)

theorem length_windowsFrom (intervalSecs : Nat) (ndt : Int) :
    (windowsFrom intervalSecs ndt).length = firesPerDay intervalSecs := by
  rw [windowsFrom, List.length_map, List.length_range]

theorem windowsFrom_getElem? (hi : i < firesPerDay intervalSecs) (ndt : Int) :
    (windowsFrom intervalSecs ndt)[i]? =
      some (windowAt (ndt + i * (intervalSecs / 60 : Nat) * 60)) := by
  rw [windowsFrom, List.getElem?_map, List.getElem?_range hi]
  rfl

theorem reportedWindows_eq (hpos : 1 ≤ intervalSecs)
    (hclock : andHmsOpt w.date w.hour w.minute = some ndt) :
    reportedWindows intervalSecs w = .ok (windowsFrom intervalSecs ndt) := by
  have hne : intervalSecs ≠ 0 := Nat.one_le_iff_ne_zero.1 hpos
  rw [reportedWindows, if_neg hne, hclock]
  simp only [Option.elim_some, bind_pure_comp, List.map_eq_map, List.map_map]
  rfl

/-- Whole minutes and seconds of `i` intervals. -/
theorem mul_interval_eq (i intervalSecs : Nat) :
    (i * intervalSecs : Int) =
      i * (intervalSecs / 60 : Nat) * 60 + i * (intervalSecs % 60 : Nat) := by
  conv_lhs => rw [← Nat.div_add_mod intervalSecs 60]
  push_cast
  ring

/-- The first day's windows end before the second day does. -/
theorem date_windowsFrom {date ndt : Int} (hpos : 1 ≤ intervalSecs)
    (hclock : andHmsOpt date hour minute = some ndt) (hw : w ∈ windowsFrom intervalSecs ndt) :
    w.date = date ∨ w.date = date + 1 := by
  obtain ⟨⟨hhour, hminute⟩, hndt⟩ := andHmsOpt_eq_some_iff.1 hclock
  obtain ⟨i, hi, rfl⟩ := List.mem_map.1 hw
  have hday : (i * intervalSecs : Int) < 86400 := by
    exact_mod_cast mul_lt_day hpos (List.mem_range.1 hi)
  have hsplit := mul_interval_eq i intervalSecs
  have hseconds : (0 : Int) ≤ i * (intervalSecs % 60 : Nat) := by positivity
  have hminutes : (0 : Int) ≤ i * (intervalSecs / 60 : Nat) := by positivity
  generalize (i * (intervalSecs / 60 : Nat) : Int) = minutes at hsplit hminutes ⊢
  change (ndt + minutes * 60) / 86400 = date ∨ (ndt + minutes * 60) / 86400 = date + 1
  omega

theorem step_windowsFrom {ndt : Int} {w w' : ChosenWindow} {i : Nat} (hmin : ndt % 60 = 0)
    (hw : w ∈ (windowsFrom intervalSecs ndt)[i]?)
    (hw' : w' ∈ (windowsFrom intervalSecs ndt)[i + 1]?) :
    andHmsOpt w'.date w'.hour w'.minute = (andHmsOpt w.date w.hour w.minute).map
      fun l : Int => l + (intervalSecs / 60 : Nat) * 60 := by
  have hi : i + 1 < firesPerDay intervalSecs := by
    obtain ⟨h, -⟩ := List.getElem?_eq_some_iff.1 hw'
    rwa [length_windowsFrom] at h
  rw [windowsFrom_getElem? (Nat.lt_of_succ_lt hi)] at hw
  rw [windowsFrom_getElem? hi] at hw'
  cases hw
  cases hw'
  rw [andHmsOpt_windowAt, andHmsOpt_windowAt, Option.map_some, Option.some.injEq, Nat.cast_succ,
    add_mul, one_mul]
  generalize (i * (intervalSecs / 60 : Nat) : Int) = minutes
  omega

theorem reported_eq_iff {ndt U : Int} (hlocal : tz.toLocal U = ndt) (hmin : ndt % 60 = 0)
    (i intervalSecs : Nat) :
    windowAt (ndt + i * (intervalSecs / 60 : Nat) * 60) = localWindow tz (U + i * intervalSecs) ↔
      0 ≤ i * (intervalSecs % 60 : Nat) + (tz.offset (U + i * intervalSecs) - tz.offset U) ∧
      i * (intervalSecs % 60 : Nat) + (tz.offset (U + i * intervalSecs) - tz.offset U) < 60 := by
  have hsplit := mul_interval_eq i intervalSecs
  rw [localWindow, windowAt_eq_iff]
  simp only [WallClock.Zone.toLocal] at hlocal ⊢
  generalize tz.offset (U + i * intervalSecs) = later
  generalize (i * (intervalSecs / 60 : Nat) : Int) = minutes at hsplit ⊢
  generalize (i * (intervalSecs % 60 : Nat) : Int) = seconds at hsplit ⊢
  rw [hsplit]
  omega

theorem firesAt_of_mem {spec : ScheduleSpec Calendar} (hwrite : rephase sdk ts (some spec) = .ok spec')
    (hevery : every ∈ spec.everySecs) (hpos : 0 < every) (hgrid : OnGrid every ts t) :
    spec'.FiresAt t :=
  (firesAt_rephase_phase hwrite).2 ⟨every, hevery, (phaseOf_onGrid hpos).2 hgrid⟩

theorem firesAt_grid_iff {spec : Option (ScheduleSpec Calendar)} (hU : windowInstant tz w = some U)
    (hwrite : rephase sdk (windowTs tz w) spec = .ok spec') (intervalSecs i : Nat) :
    spec'.FiresAt (U + i * intervalSecs) ↔ GridAgrees spec intervalSecs U i := by
  rw [firesAt_rephase_option hwrite]
  apply exists_congr
  intro old
  apply and_congr_right
  intro _
  apply exists_congr
  intro every
  apply and_congr_right
  intro _
  split
  · rename_i h
    rw [phaseOf_onGrid h.2, (windowTs_eq_iff hU).2 h.1, onGrid_iff_dvd, add_sub_cancel_left]
  · rename_i h
    have hphase : phaseOf (windowTs tz w) every = 0 := by
      rcases Nat.eq_zero_or_pos every with rfl | hpos
      · rw [phaseOf, if_neg (lt_irrefl 0)]
      · have hzero : windowTs tz w = 0 := by
          apply windowTs_of_missing
          intro V hV
          cases hU.symm.trans hV
          exact Int.not_le.1 fun h0 => h ⟨h0, hpos⟩
        rw [hzero, phaseOf, Nat.zero_mod, ite_self]
    rw [hphase, onGrid_iff_dvd, Nat.cast_zero, sub_zero]

/-- What a run reports for an update that succeeded: the day's firings in whole minutes. They are
the firings of the rewritten spec exactly when the report agrees with each. -/
theorem reported_windows_iff (sdk : Sdk Calendar) (cluster : Cluster Calendar)
    (tzdb : String → Option Tz) (timezone : String) (a : ScheduleAssignment) (tz : Tz) (U : Int)
    (desc : ScheduleDescription Calendar) (spec' : ScheduleSpec Calendar)
    (hpos : 1 ≤ a.intervalSecs) (htz : tzdb timezone = some tz)
    (hU : windowInstant tz a.window = some U)
    (hdesc : cluster.describe ⟨a.scheduleRef.namespace, a.scheduleRef.scheduleId⟩ = .ok desc)
    (hupdate : updateScheduleWindows sdk cluster tzdb (updateInput timezone a) =
      .ok (.updated, some spec')) :
    ∃ windows, recordUpdate (a, .ok .updated) =
        .ok (.inl ⟨a.scheduleRef.namespace, a.scheduleRef.scheduleId, windows⟩) ∧
      windows.length = max (86400 / a.intervalSecs) 1 ∧
      (∀ w ∈ windows, w.date = a.window.date ∨ w.date = a.window.date + 1) ∧
      (∀ i, ∀ w ∈ windows[i]?, ∀ w' ∈ windows[i + 1]?,
        andHmsOpt w'.date w'.hour w'.minute = (andHmsOpt w.date w.hour w.minute).map
          fun l : Int => l + (a.intervalSecs / 60 : Nat) * 60) ∧
      ((∀ i : Nat, i < windows.length → spec'.FiresAt (U + i * a.intervalSecs) ∧
          windows[i]? = some (localWindow tz (U + i * a.intervalSecs))) ↔
        ∀ i < windows.length, ReportAgrees tz desc.spec a.intervalSecs U i) := by
  obtain ⟨ndt, hclock⟩ := exists_andHmsOpt hU
  have hwrite : rephase sdk (windowTs tz a.window) desc.spec = .ok spec' := by
    obtain ⟨-, -, tz', htz', ndt', hndt', desc', hdesc', hwrite, -⟩ :=
      updateScheduleWindows_some_iff.1 hupdate
    cases htz.symm.trans htz'
    cases hdesc.symm.trans hdesc'
    rwa [← windowTs_of_andHmsOpt hndt'] at hwrite
  have hlocal : tz.toLocal U = ndt := by
    rw [windowInstant, hclock, Option.bind_some] at hU
    exact (tz.earliest_eq_some_iff.1 hU).1
  have hmin : ndt % 60 = 0 := by
    obtain ⟨-, hndt⟩ := andHmsOpt_eq_some_iff.1 hclock
    omega
  have hrecord : recordUpdate (a, .ok .updated) = .ok (.inl ⟨a.scheduleRef.namespace,
      a.scheduleRef.scheduleId, windowsFrom a.intervalSecs ndt⟩) := by
    rw [recordUpdate, reportedWindows_eq hpos hclock]
    rfl
  have hlen := length_windowsFrom a.intervalSecs ndt
  refine ⟨_, hrecord, hlen, fun w hw => date_windowsFrom hpos hclock hw,
    fun i w hw w' hw' => step_windowsFrom hmin hw hw', ?_⟩
  rw [hlen]
  apply forall₂_congr
  intro i hi
  rw [windowsFrom_getElem? hi, Option.some.injEq, reported_eq_iff hlocal hmin, ReportAgrees]
  exact and_congr_left' (firesAt_grid_iff hU hwrite a.intervalSecs i)

section Sample

def sixHourly : ScheduleAssignment := ⟨⟨"default", "report"⟩, ⟨19724, 2, 0⟩, 21630⟩

/-- Half a minute over six hours: the third firing is a minute after the window reported for it. -/
theorem reported_windows_drop_seconds :
    ∃ spec', updateScheduleWindows (.plain String) (serving ⟨[], [], some (oneInterval _ 21630)⟩)
        (fun _ => some (WallClock.Zone.fixed 0)) (updateInput "UTC" sixHourly) =
          .ok (.updated, some spec') ∧
      windowInstant (WallClock.Zone.fixed 0) sixHourly.window = some 1704160800 ∧
      spec'.FiresAt (1704160800 + 2 * 21630) ∧
      localWindow (WallClock.Zone.fixed 0) (1704160800 + 2 * 21630) = ⟨19724, 14, 1⟩ ∧
      recordUpdate (sixHourly, .ok .updated) = .ok (.inl ⟨"default", "report",
        [⟨19724, 2, 0⟩, ⟨19724, 8, 0⟩, ⟨19724, 14, 0⟩]⟩) := by
  have hU : windowInstant (WallClock.Zone.fixed 0) sixHourly.window = some 1704160800 := by decide
  have hwrite : rephase (.plain String) (windowTs (WallClock.Zone.fixed 0) sixHourly.window)
      (some (oneInterval String 21630)) = .ok _ :=
    rephase_some_eq_ok_iff.2 ⟨none, none, rfl, rfl, rfl⟩
  have hfires := (firesAt_grid_iff hU hwrite 21630 2).2
    ⟨_, rfl, 21630, List.mem_singleton_self _, by decide⟩
  exact ⟨_, rfl, hU, hfires, by decide, by decide⟩

/-- The interval was halved after the run discovered it, and the report still agrees. -/
theorem reported_windows_iff_half_day :
    ∃ windows, recordUpdate (⟨⟨"default", "report"⟩, ⟨19724, 2, 0⟩, 43200⟩, .ok .updated) =
        .ok (.inl ⟨"default", "report", windows⟩) ∧
      windows[1]? = some (localWindow (WallClock.Zone.fixed 0) (1704160800 + 43200)) := by
  obtain ⟨windows, hrecord, hlen, -, -, hagree⟩ := reported_windows_iff (.plain String)
    (serving ⟨[], [], some (oneInterval String 21600)⟩) (fun _ => some (WallClock.Zone.fixed 0))
    "UTC" ⟨⟨"default", "report"⟩, ⟨19724, 2, 0⟩, 43200⟩ (WallClock.Zone.fixed 0) 1704160800
    ⟨[], [], some (oneInterval String 21600)⟩ _ (by decide) rfl (by decide) rfl rfl
  refine ⟨windows, hrecord, (hagree.2 (fun i _ => ?_) 1 (by rw [hlen]; decide)).2⟩
  refine ⟨⟨_, rfl, 21600, List.mem_singleton_self _, ?_⟩, by simp [WallClock.Zone.fixed],
    by simp [WallClock.Zone.fixed]⟩
  rw [if_pos ⟨by decide, by decide⟩]
  exact Dvd.dvd.mul_left (by decide) _

end Sample

end Gridshift
