import Gridshift.Workflow

namespace Gridshift
open Sorting
set_option autoImplicit true

/-- What discovery reports for one namespace: its schedules and skips, or its own failure. -/
def reported : String × Except String DiscoverSchedulesResult → List ScheduleRef
  | (_, .ok result) => result.schedules.map ScheduleInfo.ref ++ result.skipped.map SkippedSchedule.ref
  | (ns, .error _) => [⟨ns, ""⟩]

/-- The assignments whose updates a run starts; a run that ends early starts none. -/
def dispatched (lib : Libraries) (tzdb : String → Option Tz) (act : Activities)
    (input : SchedulerInput) : List ScheduleAssignment :=
  match planStage lib tzdb act input with
  | .ok (.inr (_, plan)) => plan.assignments
  | _ => []

/-- The references in what the run has so far: its result, or its skips and its plan. -/
def accountedFor : SchedulerResult ⊕ List SkippedSchedule × PlanWindowsResult → List ScheduleRef
  | .inl result => result.updates.map ScheduleUpdateSummary.ref ++
      result.skipped.map SkippedSchedule.ref
  | .inr (skipped, plan) => plan.assignments.map ScheduleAssignment.scheduleRef ++
      (skipped ++ plan.skipped).map SkippedSchedule.ref

def isUpdated : ScheduleAssignment × Except String UpdateOutcome → Bool
  | (_, .ok .updated) => true
  | _ => false

theorem flatMap_reported_perm (outcomes : List (String × Except String DiscoverSchedulesResult)) :
    ((outcomes.flatMap discovered).map ScheduleInfo.ref ++
      (outcomes.flatMap discoverySkips).map SkippedSchedule.ref).Perm
        (outcomes.flatMap reported) := by
  rw [List.map_flatMap, List.map_flatMap]
  refine (List.flatMap_append_perm outcomes _ _).trans (.of_eq (congrArg outcomes.flatMap ?_))
  funext o
  obtain ⟨ns, outcome⟩ := o
  cases outcome <;> rfl

theorem sortSchedules_perm (schedules : List ScheduleInfo) :
    (sortSchedules schedules).Perm schedules :=
  List.perm_insertionSort _ _

theorem sortSchedules_refs_perm (outcomes : List (String × Except String DiscoverSchedulesResult)) :
    ((sortSchedules (outcomes.flatMap discovered)).map ScheduleInfo.ref ++
      (outcomes.flatMap discoverySkips).map SkippedSchedule.ref).Perm
        (outcomes.flatMap reported) :=
  (((sortSchedules_perm _).map _).append_right _).trans (flatMap_reported_perm outcomes)

theorem skipForNoSlots_refs (schedules : List ScheduleInfo) :
    (schedules.map skipForNoSlots).map SkippedSchedule.ref = schedules.map ScheduleInfo.ref := by
  rw [List.map_map]
  rfl

theorem recordUpdate_cases (h : recordUpdate o = .ok c) :
    (isUpdated o = true ∧ ∃ windows, c = .inl ⟨o.1.scheduleRef.namespace,
      o.1.scheduleRef.scheduleId, windows⟩) ∨
    (isUpdated o = false ∧ ∃ reason, c = .inr ⟨o.1.scheduleRef.namespace,
      o.1.scheduleRef.scheduleId, reason⟩) := by
  obtain ⟨a, outcome⟩ := o
  cases outcome with
  | error e =>
    cases h
    exact .inr ⟨rfl, _, rfl⟩
  | ok outcome =>
    cases outcome with
    | skipped reason =>
      cases h
      exact .inr ⟨rfl, _, rfl⟩
    | updated =>
      simp only [recordUpdate] at h
      cases hw : reportedWindows a.intervalSecs a.window with
      | error e =>
        rw [hw] at h
        cases h
      | ok windows =>
        rw [hw] at h
        cases h
        exact .inl ⟨rfl, _, rfl⟩

theorem recorded_refs {outcomes : List (ScheduleAssignment × Except String UpdateOutcome)}
    (h : outcomes.map recordUpdate = recorded.map .ok) :
    recorded.map (Sum.elim ScheduleUpdateSummary.ref SkippedSchedule.ref) =
        outcomes.map (fun o => o.1.scheduleRef) ∧
      (lefts recorded).map ScheduleUpdateSummary.ref =
        (outcomes.filter isUpdated).map fun o => o.1.scheduleRef := by
  induction outcomes generalizing recorded with
  | nil =>
    rw [List.map_nil, eq_comm, List.map_eq_nil_iff] at h
    subst h
    exact ⟨rfl, rfl⟩
  | cons o outcomes ih =>
    cases recorded with
    | nil => cases h
    | cons c recorded =>
      rw [List.map_cons, List.map_cons, List.cons.injEq] at h
      obtain ⟨hall, hupdated⟩ := ih h.2
      rcases recordUpdate_cases h.1 with ⟨ho, windows, rfl⟩ | ⟨ho, reason, rfl⟩
      · rw [List.map_cons, List.map_cons, hall, lefts_inl, List.map_cons, hupdated,
          List.filter_cons_of_pos ho]
        exact ⟨rfl, rfl⟩
      · rw [List.map_cons, List.map_cons, hall, lefts_inr, hupdated,
          List.filter_cons_of_neg (by simp [ho])]
        exact ⟨rfl, rfl⟩

theorem updateOutcomes_refs (act : Activities) (timezone : String)
    (assignments : List ScheduleAssignment) :
    (updateOutcomes act timezone assignments).map (fun o => o.1.scheduleRef) =
      assignments.map ScheduleAssignment.scheduleRef := by
  rw [updateOutcomes, List.map_map]
  conv_rhs => rw [← List.zipIdx_map_fst 0 assignments, List.map_map]
  rfl

theorem exists_of_mem_updateOutcomes (ho : o ∈ updateOutcomes act timezone assignments) :
    ∃ i : Fin assignments.length, o = (assignments.get i,
      act.updateScheduleWindows i (updateInput timezone (assignments.get i))) := by
  obtain ⟨⟨a, i⟩, hi, rfl⟩ := List.mem_map.1 ho
  obtain ⟨hlt, ha⟩ := List.mem_zipIdx' hi
  exact ⟨⟨i, hlt⟩, by rw [List.get_eq_getElem, ← ha]⟩

theorem planWindowAssignments_perm
    (h : planWindowAssignments lib tzdb input = .ok plan) :
    (plan.assignments.map ScheduleAssignment.scheduleRef ++
      plan.skipped.map SkippedSchedule.ref).Perm (input.schedules.map ScheduleInfo.ref) := by
  obtain ⟨tz, -, hplan⟩ := except_bind_eq_ok_iff.1 h
  exact planAssignments_perm (elim_eq_ok_iff.1 hplan)

/-- The plan of a run that has discovered its schedules. -/
def planDiscovered (lib : Libraries) (tzdb : String → Option Tz) (act : Activities)
    (input : SchedulerInput) (now : SystemTime) (tz : Tz) (schedules : List ScheduleInfo)
    (skipped : List SkippedSchedule) (slotMins : Nat) :
    Except String (SchedulerResult ⊕ List SkippedSchedule × PlanWindowsResult) := do
  if schedules.isEmpty then
    return .inl ⟨0, [], skipped⟩
  let durationPairs ← act.measureScheduleDurations ⟨schedules.map ScheduleInfo.ref⟩
  let todayWindows ← act.fetchPricedWindows ⟨today tz now, input.timezone⟩
  let tomorrowResult ← act.tryFetchPricedWindows ⟨today tz now + 1, input.timezone⟩
  let pricedWindows := pricePool tz now todayWindows tomorrowResult.windows
  if pricedWindows.isEmpty then
    return .inl ⟨0, [], schedules.map skipForNoSlots ++ skipped⟩
  let plan ← planWindowAssignments lib tzdb ⟨schedules, durationPairs, pricedWindows,
    input.timezone, if 0 ≤ now then now / 10 ^ 9 else 0, slotMins⟩
  return .inr (skipped, plan)

theorem planStage_eq (lib : Libraries) (tzdb : String → Option Tz) (act : Activities)
    (input : SchedulerInput) :
    planStage lib tzdb act input = (do
      let now ← act.workflowTime.elim (.error "no workflow time") .ok
      let tz ← (tzdb input.timezone).elim (.error s!"invalid timezone {debugStr input.timezone}") .ok
      let namespaces ← act.listManagedNamespaces
      let outcomes := discoverOutcomes act input.query ((today tz now + 2) * 86400) namespaces
      planDiscovered lib tzdb act input now tz (sortSchedules (outcomes.flatMap discovered))
        (outcomes.flatMap discoverySkips) (slotDuration outcomes)) := rfl

/-- How planning ends: with nothing discovered, with no slot to be had, or with a plan. -/
theorem planDiscovered_cases
    (h : planDiscovered lib tzdb act input now tz schedules skipped slotMins = .ok stage) :
    schedules = [] ∧ stage = .inl ⟨0, [], skipped⟩ ∨
    stage = .inl ⟨0, [], schedules.map skipForNoSlots ++ skipped⟩ ∨
    ∃ plan, stage = .inr (skipped, plan) ∧
      (plan.assignments.map ScheduleAssignment.scheduleRef ++
        plan.skipped.map SkippedSchedule.ref).Perm (schedules.map ScheduleInfo.ref) := by
  simp only [planDiscovered] at h
  split at h
  · rename_i hempty
    cases h
    exact .inl ⟨List.isEmpty_iff.1 hempty, rfl⟩
  · obtain ⟨pairs, -, h⟩ := except_bind_eq_ok_iff.1 h
    obtain ⟨todayWindows, -, h⟩ := except_bind_eq_ok_iff.1 h
    obtain ⟨tomorrowResult, -, h⟩ := except_bind_eq_ok_iff.1 h
    split at h
    · cases h
      exact .inr (.inl rfl)
    · obtain ⟨plan, hplan, h⟩ := except_bind_eq_ok_iff.1 h
      cases h
      exact .inr (.inr ⟨plan, rfl, planWindowAssignments_perm hplan⟩)

theorem planStage_refs (h : planStage lib tzdb act input = .ok stage) :
    ∃ now tz namespaces, act.workflowTime = some now ∧ tzdb input.timezone = some tz ∧
      act.listManagedNamespaces = .ok namespaces ∧
      (accountedFor stage).Perm
        ((discoverOutcomes act input.query ((today tz now + 2) * 86400)
          namespaces).flatMap reported) ∧
      ∀ result, stage = .inl result → result.updates = [] ∧ result.schedulesUpdated = 0 := by
  rw [planStage_eq] at h
  obtain ⟨now, hnow, h⟩ := except_bind_eq_ok_iff.1 h
  obtain ⟨tz, htz, h⟩ := except_bind_eq_ok_iff.1 h
  obtain ⟨namespaces, hns, h⟩ := except_bind_eq_ok_iff.1 h
  refine ⟨now, tz, namespaces, elim_eq_ok_iff.1 hnow, elim_eq_ok_iff.1 htz, hns, ?_⟩
  have hrefs := sortSchedules_refs_perm
    (discoverOutcomes act input.query ((today tz now + 2) * 86400) namespaces)
  rcases planDiscovered_cases h with ⟨hnil, rfl⟩ | rfl | ⟨plan, rfl, hperm⟩
  · rw [hnil] at hrefs
    refine ⟨hrefs, ?_⟩
    rintro _ ⟨⟩
    exact ⟨rfl, rfl⟩
  · refine ⟨?_, ?_⟩
    · simpa only [accountedFor, List.map_nil, List.nil_append, List.map_append,
        skipForNoSlots_refs] using hrefs
    · rintro _ ⟨⟩
      exact ⟨rfl, rfl⟩
  · refine ⟨?_, ?_⟩
    · simp only [accountedFor, List.map_append]
      refine List.Perm.trans ?_ ((hperm.append_right _).trans hrefs)
      simp only [List.append_assoc]
      exact List.Perm.append_left _ List.perm_append_comm
    · rintro _ ⟨⟩

theorem recorded_refs_perm {outcomes : List (ScheduleAssignment × Except String UpdateOutcome)}
    (h : outcomes.map recordUpdate = recorded.map .ok) :
    ((lefts recorded).map ScheduleUpdateSummary.ref ++
      (rights recorded).map SkippedSchedule.ref).Perm
        (outcomes.map fun o => o.1.scheduleRef) :=
  (split_perm _ _ recorded).trans (.of_eq (recorded_refs h).1)

end Gridshift
