import Gridshift.PlanExactness
import Gridshift.Discovery

namespace Gridshift
open BinaryProgram Sorting
set_option autoImplicit true

/-- The window that a run's plan gives to the only schedule it has found. -/
def chooseWindow (lib : Libraries) (scheduleDurations : ScheduleRef → Option Nat) (tz : Tz)
    (slotDurationMins : Nat) (nowSecs : Int) (priced : List PricedWindow) (s : ScheduleInfo) :
    Option ChosenWindow :=
  (planAssignments lib [s] scheduleDurations priced tz nowSecs slotDurationMins).bind fun plan =>
    plan.assignments.head?.map ScheduleAssignment.window

/-- A solver that finds an exact minimiser of every plan's program. -/
def Libraries.Exact (lib : Libraries) : Prop :=
  ∀ (jobs : List Job) (nSlots : Nat) (prices : List Rat), JobsFit jobs nSlots →
    ∃ ρ, lib.solve (planModel jobs nSlots prices) = .ok (F64.finite ∘ ρ) ∧
      (planModel jobs nSlots prices).IsOptimal ρ

theorem exactSolve_exact (formatDuration : Nat → String) :
    Libraries.Exact ⟨exactSolve, formatDuration⟩ :=
  fun _ _ prices hfit => exactSolve_of_fit hfit prices

/-- Whatever the solver answers, the chosen window is a slot from the first eligible one on. -/
theorem chooseWindow_eligible
    (h : chooseWindow lib scheduleDurations tz slotDurationMins nowSecs priced s = some w) :
    ∃ t : Fin priced.length, earliestEligibleIndex priced s.lastFireSecs s.intervalSecs tz ≤ t ∧
      w = (priced.get t).toChosen := by
  obtain ⟨plan, hplan, hw⟩ := Option.bind_eq_some_iff.1 h
  obtain ⟨a, ha, rfl⟩ := Option.map_eq_some_iff.1 hw
  obtain ⟨s', hs', t, ht, -, rfl⟩ := mem_planAssignments hplan (List.mem_of_head? ha)
  rw [List.mem_singleton.1 hs'] at ht
  exact ⟨t, ht, rfl⟩

theorem jobsFit_jobOf (h : Reaches scheduleDurations priced tz slotDurationMins s) :
    JobsFit [jobOf scheduleDurations priced tz slotDurationMins s] priced.length := by
  intro job hjob
  rw [List.mem_singleton.1 hjob]
  exact ⟨one_le_durationSlots _ _, h⟩

def Assignment.single (h : job.LegalStart nSlots t) : Assignment [job] nSlots where
  start _ := t
  legal j := by
    rw [List.get_eq_getElem, Fin.fin_one_eq_zero j]
    exact h

theorem Assignment.cost_one {priced : List PricedWindow} (h : job.durationSlots = 1)
    (a : Assignment [job] priced.length) (ha : a.start 0 < priced.length) :
    a.cost (priced.map PricedWindow.pricePPerKwh) = (priced.get ⟨a.start 0, ha⟩).pricePPerKwh := by
  rw [cost_single, h, Finset.sum_range_one, Nat.add_zero, List.getD_eq_getElem?_getD,
    List.getElem?_map, List.getElem?_eq_getElem ha]
  rfl

theorem chooseWindow_cheapest (hexact : lib.Exact) (hslot : slotDurationMins ≠ 0) (nowSecs : Int)
    (h : Reaches scheduleDurations priced tz slotDurationMins s) :
    ∃ a : Assignment [jobOf scheduleDurations priced tz slotDurationMins s] priced.length,
      chooseWindow lib scheduleDurations tz slotDurationMins nowSecs priced s =
        some (priced.get ⟨a.start 0, (jobsFit_jobOf h).lt_of_legal 0 (a.legal 0)⟩).toChosen ∧
      ∀ a' : Assignment [jobOf scheduleDurations priced tz slotDurationMins s] priced.length,
        a.cost (priced.map PricedWindow.pricePPerKwh) ≤
          a'.cost (priced.map PricedWindow.pricePPerKwh) := by
  obtain ⟨ρ, hρ, hopt⟩ := hexact _ _ (priced.map PricedWindow.pricePPerKwh) (jobsFit_jobOf h)
  obtain ⟨a, ha, hmin⟩ := exists_cheapest_result (jobsFit_jobOf h) hρ hopt
  refine ⟨a, ?_, hmin⟩
  have hplan : planAssignments lib [s] scheduleDurations priced tz nowSecs slotDurationMins =
      some (solvedPlan lib priced [.inl (jobOf scheduleDurations priced tz slotDurationMins s)]) :=
    planAssignments_eq_some_iff.2 ⟨_, by rw [List.map_singleton, classify_of_reaches hslot h]; rfl,
      rfl⟩
  rw [chooseWindow, hplan, Option.bind_some, solvedPlan, lefts_inl, lefts_nil, ha]
  rfl

/-- A job of one slot goes to the pool's only cheapest slot, if that slot is eligible. -/
theorem chooseWindow_of_unique (hexact : lib.Exact) (hslot : slotDurationMins ≠ 0) (nowSecs : Int)
    (hone : reservedSlots scheduleDurations slotDurationMins s = 1) {t : Fin priced.length}
    (ht : earliestEligibleIndex priced s.lastFireSecs s.intervalSecs tz ≤ t)
    (hmin : ∀ t' : Fin priced.length, t' ≠ t →
      (priced.get t).pricePPerKwh < (priced.get t').pricePPerKwh) :
    chooseWindow lib scheduleDurations tz slotDurationMins nowSecs priced s =
      some (priced.get t).toChosen := by
  have hend : t + reservedSlots scheduleDurations slotDurationMins s ≤ priced.length := by omega
  have hreach : Reaches scheduleDurations priced tz slotDurationMins s :=
    (Nat.add_le_add_right ht _).trans hend
  obtain ⟨a, ha, hle⟩ := chooseWindow_cheapest hexact hslot nowSecs hreach
  have hlt := (jobsFit_jobOf hreach).lt_of_legal 0 (a.legal 0)
  have hbest : (⟨a.start 0, hlt⟩ : Fin priced.length) = t := by
    by_contra hne
    have hother := hle (.single (t := t) ⟨ht, hend⟩)
    rw [Assignment.cost_one hone a hlt, Assignment.cost_one hone _ t.isLt] at hother
    exact absurd hother (not_le.2 (hmin _ hne))
  rw [ha]
  exact congrArg (fun t => some (priced.get t).toChosen) hbest

theorem Chronological.nodup (h : Chronological priced tz) : priced.Nodup :=
  h.imp fun hlt he => absurd (congrArg (slotEpoch · tz) he) hlt.ne

/-- In a chronological pool the cheapest slot, if there is only one and it is late enough, is
the one that is chosen. -/
theorem chooseWindow_of_mem (hexact : lib.Exact) (hslot : slotDurationMins ≠ 0) (nowSecs : Int)
    (hone : reservedSlots scheduleDurations slotDurationMins s = 1)
    (hinc : Chronological priced tz) (hw : w ∈ priced)
    (hfloor : ∀ f ∈ s.lastFireSecs, fireFloor f s.intervalSecs ≤ slotEpoch w tz)
    (hmin : ∀ w' ∈ priced, w' ≠ w → w.pricePPerKwh < w'.pricePPerKwh) :
    chooseWindow lib scheduleDurations tz slotDurationMins nowSecs priced s = some w.toChosen := by
  obtain ⟨t, ht, rfl⟩ := List.getElem_of_mem hw
  refine chooseWindow_of_unique hexact hslot nowSecs hone (t := ⟨t, ht⟩) ?_ ?_
  · cases hlast : s.lastFireSecs with
    | none => exact Nat.zero_le _
    | some f => exact (hinc.eligible_iff ht).2 (hfloor f hlast)
  · intro t' hne
    refine hmin _ (List.getElem_mem t'.isLt) fun he => hne (Fin.ext ?_)
    exact hinc.nodup.getElem_inj_iff.1 he

end Gridshift
