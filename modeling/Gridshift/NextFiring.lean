import Gridshift.Firing

namespace Gridshift
open IntervalGrid Sorting
set_option autoImplicit true

/-- A spec of intervals alone, each of at least one whole second. -/
def ScheduleSpec.WholeIntervals (spec : ScheduleSpec Calendar) : Prop :=
  spec.interval ≠ [] ∧ ∀ iv ∈ spec.interval, ∃ d ∈ iv.interval, 1 ≤ d.seconds

theorem ScheduleSpec.WholeIntervals.everySecs_eq {spec : ScheduleSpec Calendar}
    (h : spec.WholeIntervals) :
    spec.everySecs.map (fun every : Nat => (every : Int)) =
      spec.interval.map fun iv => (iv.interval.map ProtoDuration.seconds).getD 0 := by
  obtain ⟨-, hwhole⟩ := h
  rw [everySecs, List.map_filterMap]
  apply filterMap_eq_map_iff.2
  intro iv hiv
  obtain ⟨d, hd, hsecs⟩ := hwhole iv hiv
  rw [Option.mem_def.1 hd]
  simp only [Option.map_some, Option.getD_some, Option.some.injEq]
  omega

theorem ScheduleSpec.WholeIntervals.pos {spec : ScheduleSpec Calendar} (h : spec.WholeIntervals)
    (hevery : every ∈ spec.everySecs) : 0 < every := by
  obtain ⟨iv, hiv, he⟩ := List.mem_filterMap.1 hevery
  obtain ⟨d, hd, hsecs⟩ := h.2 iv hiv
  rw [Option.mem_def.1 hd, Option.map_some, Option.some.injEq] at he
  omega

theorem ScheduleSpec.WholeIntervals.everySecs_ne_nil {spec : ScheduleSpec Calendar}
    (h : spec.WholeIntervals) : spec.everySecs ≠ [] := by
  intro hnil
  have heq := h.everySecs_eq
  rw [hnil, List.map_nil, eq_comm, List.map_eq_nil_iff] at heq
  exact h.1 heq

theorem phaseOf_lt (hpos : 0 < every) (ts : Nat) : phaseOf ts every < every := by
  rw [phaseOf, if_pos hpos]
  exact Nat.mod_lt _ hpos

theorem ScheduleSpec.WholeIntervals.pos_cast {spec : ScheduleSpec Calendar}
    (h : spec.WholeIntervals) {every : Int}
    (hevery : every ∈ spec.everySecs.map fun n : Nat => (n : Int)) : 0 < every := by
  obtain ⟨n, hn, rfl⟩ := List.mem_map.1 hevery
  have hpos := h.pos hn
  omega

theorem setOf_firesAt_rephase {spec : ScheduleSpec Calendar} (hwhole : spec.WholeIntervals)
    (hwrite : rephase sdk ts (some spec) = .ok spec') (now : Int) :
    {t | now < t ∧ spec'.FiresAt t} = {t | now < t ∧
      ∃ every ∈ spec.everySecs.map fun n : Nat => (n : Int), OnGrid every ts t} := by
  ext t
  simp only [Set.mem_ofPred_eq, firesAt_rephase_iff (fun _ => hwhole.pos) hwrite, List.mem_map,
    exists_exists_and_eq_and]

theorem anchored_of_rephase {spec : ScheduleSpec Calendar} (hwhole : spec.WholeIntervals)
    (hwrite : rephase sdk ts (some spec) = .ok spec') :
    spec'.interval.length = spec.interval.length ∧
      ∀ iv ∈ spec'.interval, ∃ every phase : Nat,
        iv = ⟨some (ofSecs every), some (ofSecs phase)⟩ ∧ phase < every ∧
          OnGrid every phase ts := by
  have hinterval := interval_rephase hwrite
  constructor
  · have hlen := congrArg List.length hwhole.everySecs_eq
    rw [List.length_map, List.length_map] at hlen
    rw [hinterval, List.length_map, hlen]
  · intro iv hiv
    rw [hinterval] at hiv
    obtain ⟨every, hevery, rfl⟩ := List.mem_map.1 hiv
    refine ⟨every, phaseOf ts every, rfl, phaseOf_lt (hwhole.pos hevery) _, ?_⟩
    rw [phaseOf_onGrid (hwhole.pos hevery)]
    exact OnGrid.self _ _

/-- Over all intervals, the first firing is the least of each interval's own. -/
theorem first_firing_of_rephase {spec : ScheduleSpec Calendar} {now : Int}
    (hwhole : spec.WholeIntervals) (hwrite : rephase sdk ts (some spec) = .ok spec')
    (hnow : now < ts) :
    ∃ first, IsLeast {t | now < t ∧ spec'.FiresAt t} first ∧
      (spec.interval.map fun iv =>
        let every := (iv.interval.map ProtoDuration.seconds).getD 0
        ts - every * ((ts - now - 1) / every)).min? = some first ∧
      (first = ts ↔ ∀ iv ∈ spec.interval, ∀ d ∈ iv.interval, ts - now ≤ d.seconds) := by
  have heverys := hwhole.everySecs_eq
  have hset := setOf_firesAt_rephase hwhole hwrite now
  have hpos (every : Int) (h : every ∈ spec.everySecs.map fun n : Nat => (n : Int)) :
      0 < every := hwhole.pos_cast h
  cases hfirst : ((spec.everySecs.map fun n : Nat => (n : Int)).map fun every =>
      nextAfter every ts now).min? with
  | none =>
    rw [List.min?_eq_none_iff, List.map_eq_nil_iff, List.map_eq_nil_iff] at hfirst
    exact (hwhole.everySecs_ne_nil hfirst).elim
  | some first =>
    refine ⟨first, hset ▸ isLeast_of_min? hpos hfirst, ?_, ?_⟩
    · rw [← hfirst, heverys, List.map_map]
      congr 1
      apply List.map_congr_left
      intro iv hiv
      refine (nextAfter_eq_sub (hpos _ ?_) ts now).symm
      rw [heverys]
      exact List.mem_map_of_mem hiv
    · rw [min?_nextAfter_eq_self_iff hpos hnow hfirst, heverys, List.forall_mem_map]
      apply forall₂_congr
      intro iv hiv
      obtain ⟨d, hd, -⟩ := hwhole.2 iv hiv
      rw [Option.mem_def.1 hd]
      simp only [Option.map_some, Option.getD_some, Option.mem_def, Option.some.injEq,
        forall_eq']

/-- The next firing that an update leaves behind is the least, over the intervals it finds, of the
first instant of the window's grid. It is the window itself exactly when no interval is shorter
than the time still to go. -/
theorem next_firing_of_update (sdk : Sdk Calendar) (cluster : Cluster Calendar)
    (tzdb : String → Option Tz) (input : UpdateWindowsInput) (tz : Tz) (ndt U now : Int)
    (desc : ScheduleDescription Calendar) (spec spec' : ScheduleSpec Calendar)
    (htz : tzdb input.timezone = some tz)
    (hndt : andHmsOpt input.window.date input.window.hour input.window.minute = some ndt)
    (hU : tz.earliest ndt = some U) (h0 : 0 ≤ now) (hnow : now < U)
    (hdesc : cluster.describe ⟨input.namespace, input.scheduleId⟩ = .ok desc)
    (hspec : desc.spec = some spec) (hwhole : spec.WholeIntervals)
    (hupdate : updateScheduleWindows sdk cluster tzdb input = .ok (.updated, some spec')) :
    (spec'.interval.length = spec.interval.length ∧
      ∀ iv ∈ spec'.interval, ∃ every phase : Nat,
        iv = ⟨some (ofSecs every), some (ofSecs phase)⟩ ∧ phase < every ∧
          OnGrid every phase U) ∧
    ∃ first, IsLeast {t | now < t ∧ spec'.FiresAt t} first ∧
      (spec.interval.map fun iv =>
        let every := (iv.interval.map ProtoDuration.seconds).getD 0
        U - every * ((U - now - 1) / every)).min? = some first ∧
      (first = U ↔ ∀ iv ∈ spec.interval, ∀ d ∈ iv.interval, U - now ≤ d.seconds) := by
  obtain ⟨-, -, tz', htz', ndt', hndt', desc', hdesc', hwrite, -⟩ :=
    updateScheduleWindows_some_iff.1 hupdate
  cases htz.symm.trans htz'
  cases hndt.symm.trans hndt'
  cases hdesc.symm.trans hdesc'
  rw [hspec] at hwrite
  have hts : (utcTs tz ndt : Int) = U := utcTs_of_earliest hU (by omega)
  subst hts
  exact ⟨anchored_of_rephase hwhole hwrite, first_firing_of_rephase hwhole hwrite hnow⟩

section Sample

def dailyAndHourly : ScheduleSpec String :=
  ⟨[⟨some ⟨86400, 0⟩, some ⟨7200, 0⟩⟩, ⟨some ⟨3600, 500⟩, none⟩], [], [], none, none, none, ""⟩

/-- An hourly interval beside a daily one fires ten times before the chosen window. -/
theorem next_firing_of_update_hourly :
    ∃ spec', updateScheduleWindows (.plain String) (serving ⟨[], [], some dailyAndHourly⟩)
        (fun _ => some (WallClock.Zone.fixed 0)) nightly = .ok (.updated, some spec') ∧
      IsLeast {t | 1704123000 < t ∧ spec'.FiresAt t} 1704124800 := by
  obtain ⟨-, first, hleast, hmin, -⟩ := next_firing_of_update (.plain String)
    (serving ⟨[], [], some dailyAndHourly⟩) (fun _ => some (WallClock.Zone.fixed 0)) nightly
    (WallClock.Zone.fixed 0) 1704160800 1704160800 1704123000 ⟨[], [], some dailyAndHourly⟩
    dailyAndHourly _ rfl rfl (by decide) (by decide) (by decide) rfl rfl
    ⟨by decide, by simp [dailyAndHourly]⟩ rfl
  have hfirst : some first = some 1704124800 := hmin.symm.trans (by decide)
  cases hfirst
  exact ⟨_, rfl, hleast⟩

end Sample

end Gridshift
