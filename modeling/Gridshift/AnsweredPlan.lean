import Gridshift.SingleRun

namespace Gridshift
open BinaryProgram Sorting
set_option autoImplicit true

section Placed
variable (schedules : List ScheduleInfo) (scheduleDurations : ScheduleRef → Option Nat)
  (priced : List PricedWindow) (tz : Tz) (slotMins : Nat)

/-- The jobs that the planner hands to the solver. -/
def placedJobs : List Job :=
  (schedules.filter fun s => Reaches scheduleDurations priced tz slotMins s).map
    (jobOf scheduleDurations priced tz slotMins)

/-- A call of the planner whose solver has answered within the constraints. -/
structure AnsweredPlan where
  lib : Libraries
  nowSecs : Int
  ρ : Var → Rat
  solved : lib.solve (planModel (placedJobs schedules scheduleDurations priced tz slotMins)
    priced.length (priced.map PricedWindow.pricePPerKwh)) = .ok (F64.finite ∘ ρ)
  feasible : (planModel (placedJobs schedules scheduleDurations priced tz slotMins)
    priced.length (priced.map PricedWindow.pricePPerKwh)).Feasible ρ

end Placed

section Plan
variable {schedules : List ScheduleInfo} {scheduleDurations : ScheduleRef → Option Nat}
  {priced : List PricedWindow} {tz : Tz} {slotMins : Nat}

theorem mem_placedJobs :
    job ∈ placedJobs schedules scheduleDurations priced tz slotMins ↔
      ∃ s ∈ schedules, Reaches scheduleDurations priced tz slotMins s ∧
        jobOf scheduleDurations priced tz slotMins s = job := by
  simp only [placedJobs, List.mem_map, List.mem_filter, decide_eq_true_eq, and_assoc]

theorem placedJobs_fit :
    JobsFit (placedJobs schedules scheduleDurations priced tz slotMins) priced.length := by
  intro job hjob
  obtain ⟨s, -, hr, rfl⟩ := mem_placedJobs.1 hjob
  exact ⟨one_le_durationSlots _ _, hr⟩

/-- The plan's assignments are those of the jobs placed. -/
theorem planAssignments_placed (lib : Libraries) (nowSecs : Int) (hslot : 1 ≤ slotMins) :
    ∃ plan, planAssignments lib schedules scheduleDurations priced tz nowSecs slotMins =
        some plan ∧
      plan.assignments = (assignJobs lib (placedJobs schedules scheduleDurations priced tz slotMins)
        priced).assignments := by
  obtain ⟨classified, hc, hl, -⟩ := map_classify lib scheduleDurations priced tz nowSecs
    (Nat.one_le_iff_ne_zero.1 hslot) schedules
  refine ⟨_, planAssignments_eq_some_iff.2 ⟨classified, hc, rfl⟩, ?_⟩
  rw [solvedPlan, hl]
  rfl

def AnsweredPlan.jobs (_ : AnsweredPlan schedules scheduleDurations priced tz slotMins) :
    List Job :=
  placedJobs schedules scheduleDurations priced tz slotMins

theorem AnsweredPlan.fit (p : AnsweredPlan schedules scheduleDurations priced tz slotMins) :
    JobsFit p.jobs priced.length := placedJobs_fit

def AnsweredPlan.Optimal (p : AnsweredPlan schedules scheduleDurations priced tz slotMins) :
    Prop :=
  (planModel p.jobs priced.length (priced.map PricedWindow.pricePPerKwh)).IsOptimal p.ρ

def AnsweredPlan.start (p : AnsweredPlan schedules scheduleDurations priced tz slotMins)
    (j : Fin p.jobs.length) : Option (Fin priced.length) :=
  pickSlot p.jobs priced.length (F64.finite ∘ p.ρ) j

def AnsweredPlan.assignments (p : AnsweredPlan schedules scheduleDurations priced tz slotMins) :
    Option (List ScheduleAssignment) :=
  (planAssignments p.lib schedules scheduleDurations priced tz p.nowSecs slotMins).map
    PlanWindowsResult.assignments

/-- A solution within the constraints is an assignment, and its starts are read off. -/
theorem AnsweredPlan.exists_assignment
    (p : AnsweredPlan schedules scheduleDurations priced tz slotMins) :
    ∃ s : Assignment p.jobs priced.length,
      (∀ v ∈ planVars p.jobs priced.length, p.ρ v = s.encode v) ∧
      ∀ j, p.start j = some ⟨s.start j, p.fit.lt_of_legal j (s.legal j)⟩ := by
  obtain ⟨s, hs⟩ := exists_decode p.feasible
  exact ⟨s, hs, pickSlot_of_decode p.fit hs⟩

theorem AnsweredPlan.assignments_eq
    (p : AnsweredPlan schedules scheduleDurations priced tz slotMins) (hslot : 1 ≤ slotMins)
    {start : Fin p.jobs.length → Fin priced.length} (h : ∀ j, p.start j = some (start j)) :
    p.assignments = some ((List.finRange p.jobs.length).map fun j =>
      ⟨(p.jobs.get j).ref, (priced.get (start j)).toChosen, (p.jobs.get j).intervalSecs⟩) := by
  obtain ⟨plan, hplan, hplaced⟩ : ∃ plan, planAssignments p.lib schedules scheduleDurations priced
      tz p.nowSecs slotMins = some plan ∧ _ := planAssignments_placed p.lib p.nowSecs hslot
  rw [AnsweredPlan.assignments, hplan, Option.map_some, hplaced]
  exact congrArg (fun r => some r.assignments) (assignJobs_eq p.solved h)

/-- The call whose solver answers with a given assignment. -/
def AnsweredPlan.ofAssignment
    (s : Assignment (placedJobs schedules scheduleDurations priced tz slotMins) priced.length) :
    AnsweredPlan schedules scheduleDurations priced tz slotMins where
  lib := ⟨fun _ => .ok (F64.finite ∘ s.encode), fun _ => ""⟩
  nowSecs := 0
  ρ := s.encode
  solved := rfl
  feasible := s.feasible_encode placedJobs_fit

theorem AnsweredPlan.start_ofAssignment
    (s : Assignment (placedJobs schedules scheduleDurations priced tz slotMins) priced.length)
    (j : Fin (placedJobs schedules scheduleDurations priced tz slotMins).length) :
    (AnsweredPlan.ofAssignment s).start j =
      some ⟨s.start j, placedJobs_fit.lt_of_legal j (s.legal j)⟩ :=
  pickSlot_of_decode placedJobs_fit (fun _ _ => rfl) j

variable (schedules scheduleDurations priced tz slotMins) in
/-- There is always an optimal answer. -/
theorem AnsweredPlan.exists_optimal :
    ∃ p : AnsweredPlan schedules scheduleDurations priced tz slotMins, p.Optimal := by
  have hfit : JobsFit (placedJobs schedules scheduleDurations priced tz slotMins) priced.length :=
    placedJobs_fit
  obtain ⟨s, hs⟩ := hfit.exists_cheapest (priced.map PricedWindow.pricePPerKwh)
  exact ⟨.ofAssignment s, (s.isOptimal_encode_iff hfit).2 hs⟩

end Plan

def unfired : ScheduleInfo := ⟨"ns", "a", 86400, none⟩

end Gridshift
