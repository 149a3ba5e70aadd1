import Gridshift.RephaseFrame
import Gridshift.PoolWindows

namespace Gridshift
open IntervalGrid
set_option autoImplicit true

def ScheduleSpec.SingleInterval (spec : ScheduleSpec Calendar) (everySecs : Nat) : Prop :=
  ∃ phase, spec.interval = [⟨some (ofSecs everySecs), phase⟩]

theorem phaseOf_onGrid {everySecs ts : Nat} (h : 0 < everySecs) :
    OnGrid everySecs (phaseOf ts everySecs) t ↔ OnGrid everySecs ts t := by
  rw [phaseOf, if_pos h, Int.natCast_emod]
  exact onGrid_emod

/-- The lengths, in whole seconds, of the intervals that have one. -/
def ScheduleSpec.everySecs (spec : ScheduleSpec Calendar) : List Nat :=
  spec.interval.filterMap fun iv => iv.interval.map fun d => (max d.seconds 0).toNat

theorem filterMap_rephaseInterval (utcTs : Nat) (interval : List IntervalSpec) :
    interval.filterMap (rephaseInterval utcTs) =
      (interval.filterMap fun iv => iv.interval.map fun d => (max d.seconds 0).toNat).map
        fun every => ⟨every, some (phaseOf utcTs every)⟩ := by
  rw [List.map_filterMap]
  exact List.filterMap_congr fun iv _ => rephaseInterval_eq utcTs iv

theorem interval_rephase {spec : ScheduleSpec Calendar}
    (h : rephase sdk ts (some spec) = .ok spec') :
    spec'.interval = spec.everySecs.map fun every =>
      ⟨some (ofSecs every), some (ofSecs (phaseOf ts every))⟩ := by
  obtain ⟨st, et, -, -, rfl⟩ := rephase_some_eq_ok_iff.1 h
  simp only [BuiltSpec.toProto, filterMap_rephaseInterval, List.map_map, Function.comp_def,
    Option.map_some, ScheduleSpec.everySecs]

theorem firesAt_rephase_phase {spec : ScheduleSpec Calendar}
    (hwrite : rephase sdk ts (some spec) = .ok spec') :
    spec'.FiresAt t ↔ ∃ every ∈ spec.everySecs, OnGrid every (phaseOf ts every) t := by
  simp only [ScheduleSpec.FiresAt, IntervalSpec.FiresAt, interval_rephase hwrite, List.mem_map,
    exists_exists_and_eq_and, Option.mem_def, Option.some.injEq, exists_eq_left', Option.map_some,
    Option.getD_some, ofSecs]

/-- A spec that is rewritten from none has no intervals to fire by. -/
theorem firesAt_rephase_option {spec : Option (ScheduleSpec Calendar)}
    (hwrite : rephase sdk ts spec = .ok spec') :
    spec'.FiresAt t ↔ ∃ old ∈ spec, ∃ every ∈ old.everySecs, OnGrid every (phaseOf ts every) t := by
  cases spec with
  | none =>
    obtain ⟨st, et, -, -, rfl⟩ := rephase_eq_ok_iff.1 hwrite
    simp [ScheduleSpec.FiresAt, BuiltSpec.toProto]
  | some old => simp only [Option.mem_some_iff, exists_eq_left', firesAt_rephase_phase hwrite]

theorem firesAt_rephase_iff {spec : ScheduleSpec Calendar}
    (hpos : ∀ every ∈ spec.everySecs, 0 < every) (h : rephase sdk ts (some spec) = .ok spec') :
    spec'.FiresAt t ↔ ∃ every ∈ spec.everySecs, OnGrid every ts t := by
  rw [firesAt_rephase_phase h]
  exact exists_congr fun every => and_congr_right fun hmem => phaseOf_onGrid (hpos every hmem)

theorem ScheduleSpec.SingleInterval.everySecs {spec : ScheduleSpec Calendar}
    (h : spec.SingleInterval n) : spec.everySecs = [n] := by
  obtain ⟨phase, hinterval⟩ := h
  simp [ScheduleSpec.everySecs, hinterval, ofSecs]

theorem firesAt_rephase {spec : ScheduleSpec Calendar} (hspec : spec.SingleInterval everySecs)
    (hpos : 0 < everySecs) (h : rephase sdk ts (some spec) = .ok spec') :
    spec'.FiresAt t ↔ OnGrid everySecs ts t := by
  rw [firesAt_rephase_iff _ h, hspec.everySecs]
  · simp only [List.mem_singleton, exists_eq_left]
  · intro every hevery
    rw [hspec.everySecs, List.mem_singleton] at hevery
    rwa [hevery]

theorem isLeast_firesAt_rephase {spec : ScheduleSpec Calendar}
    (hspec : spec.SingleInterval everySecs) (hpos : 0 < everySecs)
    (h : rephase sdk ts (some spec) = .ok spec') (now : Int) :
    IsLeast {t | now < t ∧ spec'.FiresAt t} (nextAfter everySecs ts now) := by
  have hset : {t | now < t ∧ spec'.FiresAt t} = {t | now < t ∧ OnGrid everySecs ts t} :=
    Set.ext fun t => and_congr_right fun _ => firesAt_rephase hspec hpos h
  rw [hset]
  exact isLeast_nextAfter (by omega) _ _

end Gridshift
