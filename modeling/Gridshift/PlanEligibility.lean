import Gridshift.PlanExactness

namespace Gridshift
open BinaryProgram Sorting
set_option autoImplicit true

/-- A schedule may start at a slot: an interval after its last firing, with room to the end. -/
def CanStart (scheduleDurations : ScheduleRef → Option Nat) (priced : List PricedWindow) (tz : Tz)
    (slotDurationMins : Nat) (s : ScheduleInfo) (t : Fin priced.length) : Prop :=
  (∀ lastFire ∈ s.lastFireSecs, lastFire + s.intervalSecs ≤ slotEpoch (priced.get t) tz) ∧
  t + max 1 ((scheduleDurations s.ref).getD slotDurationMins ⌈/⌉ slotDurationMins) ≤ priced.length

instance : Decidable (CanStart scheduleDurations priced tz slotDurationMins s t) :=
  inferInstanceAs (Decidable (_ ∧ _))

def FloorFits (s : ScheduleInfo) : Prop :=
  ∀ lastFire ∈ s.lastFireSecs,
    -2 ^ 63 ≤ lastFire + (s.intervalSecs : Int) ∧ lastFire + (s.intervalSecs : Int) < 2 ^ 63

theorem canStart_iff (hinc : Chronological priced tz) (hfit : FloorFits s)
    (t : Fin priced.length) :
    CanStart scheduleDurations priced tz slotDurationMins s t ↔
      earliestEligibleIndex priced s.lastFireSecs s.intervalSecs tz ≤ t ∧
        t + reservedSlots scheduleDurations slotDurationMins s ≤ priced.length := by
  rw [CanStart, reservedSlots, durationSlots, max_comm 1]
  apply and_congr_left'
  cases hlast : s.lastFireSecs with
  | none =>
    simp only [Option.mem_def, reduceCtorEq, false_imp_iff, implies_true, true_iff]
    exact Nat.zero_le _
  | some lastFire =>
    obtain ⟨hlo, hhi⟩ := hfit lastFire hlast
    rw [hinc.eligible_iff t.isLt, fireFloor_eq hlo hhi]
    simp only [Option.mem_def, Option.some.injEq, forall_eq', List.get_eq_getElem]

theorem exists_canStart_iff (hinc : Chronological priced tz) (hfit : FloorFits s) :
    (∃ t, CanStart scheduleDurations priced tz slotDurationMins s t) ↔
      Reaches scheduleDurations priced tz slotDurationMins s := by
  constructor
  · rintro ⟨t, ht⟩
    have h := (canStart_iff hinc hfit t).1 ht
    simp only [Reaches]
    omega
  · intro h
    exact ⟨⟨_, h.lt⟩, (canStart_iff hinc hfit _).2 ⟨le_rfl, h⟩⟩

/-- An answer within a small enough tolerance picks for each job the one slot above a half. -/
theorem exists_picks (hnear : (planModel jobs nSlots prices).Near ε ρ)
    (hε : (nSlots + 1) * ε < 1) :
    ∃ start : Fin jobs.length → Fin nSlots, ∀ j,
      pickSlot jobs nSlots (F64.finite ∘ ρ) j = some (start j) ∧
      (jobs.get j).LegalStart nSlots (start j) ∧
      ∀ v, ∀ t : Fin nSlots, xVar jobs nSlots j t = some v → (1 / 2 < ρ v ↔ t = start j) := by
  choose start hlt hlegal hhigh huniq using exists_high_start hnear hε
  refine ⟨fun j => ⟨start j, hlt j⟩, fun j => ⟨?_, hlegal j, ?_⟩⟩
  · apply pickSlot_eq_of_unique (hlegal j)
    · exact decide_eq_true (hhigh j)
    · intro t ht hgt
      exact Fin.ext (huniq j t t.isLt ht (of_decide_eq_true hgt))
  · intro v t hx
    obtain ⟨hlegal', rfl⟩ := xVar_eq_some_iff.1 hx
    constructor
    · intro hgt
      exact Fin.ext (huniq j t t.isLt hlegal' hgt)
    · rintro rfl
      exact hhigh j

/-- With a tolerant solver the plan assigns exactly the schedules that can start somewhere,
each at its only slot above a half, and never reaches the solver's failure branches. -/
theorem planAssignments_exact (lib : Libraries) (ε : Rat) (schedules : List ScheduleInfo)
    (scheduleDurations : ScheduleRef → Option Nat) (priced : List PricedWindow) (tz : Tz)
    (nowSecs : Int) (slotDurationMins : Nat)
    (hinc : Chronological priced tz) (hslot : 1 ≤ slotDurationMins)
    (hfit : ∀ s ∈ schedules, FloorFits s) (hε : (priced.length + 1) * ε < 1)
    (hsolve : ∀ jobs m, JobsFit jobs priced.length →
      m = planModel jobs priced.length (priced.map PricedWindow.pricePPerKwh) →
      (∃ ρ, m.Feasible ρ) → ∃ ρ, lib.solve m = .ok (F64.finite ∘ ρ) ∧ m.Near ε ρ) :
    ∃ (jobs : List Job) (ρ : Var → Rat) (start : Fin jobs.length → Fin priced.length),
      jobs = (schedules.filter fun s =>
        ∃ t, CanStart scheduleDurations priced tz slotDurationMins s t).map
          (jobOf scheduleDurations priced tz slotDurationMins) ∧
      (∃ ρ', (planModel jobs priced.length
        (priced.map PricedWindow.pricePPerKwh)).Feasible ρ') ∧
      lib.solve (planModel jobs priced.length (priced.map PricedWindow.pricePPerKwh)) =
        .ok (F64.finite ∘ ρ) ∧
      (∀ j v, ∀ t : Fin priced.length, xVar jobs priced.length j t = some v →
        (1 / 2 < ρ v ↔ t = start j)) ∧
      planAssignments lib schedules scheduleDurations priced tz nowSecs slotDurationMins =
        some ⟨(List.finRange jobs.length).map fun j =>
            ⟨(jobs.get j).ref, (priced.get (start j)).toChosen, (jobs.get j).intervalSecs⟩,
          (schedules.filter fun s =>
            ¬ ∃ t, CanStart scheduleDurations priced tz slotDurationMins s t).map
              (skipOf lib priced tz nowSecs)⟩ ∧
      ∀ j : Fin jobs.length, ∀ s ∈ schedules,
        (jobs.get j) = jobOf scheduleDurations priced tz slotDurationMins s →
          CanStart scheduleDurations priced tz slotDurationMins s (start j) := by
  obtain ⟨classified, hc, hl, hr⟩ := map_classify lib scheduleDurations priced tz nowSecs
    (Nat.one_le_iff_ne_zero.1 hslot) schedules
  have hjobs := jobsFit_classified hc
  have hfeasible : (planModel (lefts classified) priced.length
      (priced.map PricedWindow.pricePPerKwh)).Feasible hjobs.earliest.encode :=
    hjobs.earliest.feasible_encode hjobs
  obtain ⟨ρ, hρ, hnear⟩ := hsolve _ _ hjobs rfl ⟨_, hfeasible⟩
  obtain ⟨start, hpick⟩ := exists_picks hnear hε
  have hreach (s : ScheduleInfo) (hs : s ∈ schedules) :
      (∃ t, CanStart scheduleDurations priced tz slotDurationMins s t) ↔
        Reaches scheduleDurations priced tz slotDurationMins s :=
    exists_canStart_iff hinc (hfit s hs)
  refine ⟨lefts classified, ρ, start, ?_, ⟨_, hfeasible⟩, hρ, fun j => (hpick j).2.2, ?_, ?_⟩
  · rw [hl]
    exact congrArg _ (List.filter_congr fun s hs => by simp only [hreach s hs])
  · refine planAssignments_eq_some_iff.2 ⟨classified, hc, ?_⟩
    rw [solvedPlan, assignJobs_eq hρ fun j => (hpick j).1, List.append_nil, hr]
    congr 2
    exact List.filter_congr fun s hs => by simp only [hreach s hs]
  · intro j s hs hj
    rw [canStart_iff hinc (hfit s hs)]
    have hlegal := (hpick j).2.1
    rw [hj] at hlegal
    exact hlegal

theorem planAssignments_exact_sample :
    ∃ r, planAssignments ⟨exactSolve, fun _ => ""⟩
        [⟨"ns", "a", 3600, none⟩, ⟨"ns", "b", 604800, some 0⟩] (fun _ => none) samplePool
        (WallClock.Zone.fixed 0) 0 30 = some r ∧
      r.skipped.map SkippedSchedule.ref = [⟨"ns", "b"⟩] := by
  obtain ⟨_, _, _, _, _, _, _, hr, _⟩ := planAssignments_exact ⟨exactSolve, fun _ => ""⟩ 0
    [⟨"ns", "a", 3600, none⟩, ⟨"ns", "b", 604800, some 0⟩] (fun _ => none) samplePool
    (WallClock.Zone.fixed 0) 0 30 (by decide) (by decide)
    (by simp [FloorFits]) (by norm_num) (by
      rintro jobs _ hfit rfl _
      obtain ⟨ρ, hρ, hopt⟩ := exactSolve_of_fit hfit (samplePool.map PricedWindow.pricePPerKwh)
      exact ⟨ρ, hρ, hopt.1.near le_rfl⟩)
  refine ⟨_, hr, ?_⟩
  rw [List.map_map]
  decide

end Gridshift
