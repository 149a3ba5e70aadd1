import Gridshift.PlanExtraction

namespace Gridshift
open BinaryProgram Sorting
set_option autoImplicit true

section Classify
variable (lib : Libraries) (scheduleDurations : ScheduleRef → Option Nat)
  (priced : List PricedWindow) (tz : Tz) (nowSecs : Int) (slotDurationMins : Nat)

def reservedSlots (s : ScheduleInfo) : Nat :=
  durationSlots ((scheduleDurations s.ref).getD slotDurationMins) slotDurationMins

def jobOf (s : ScheduleInfo) : Job where
  «namespace» := s.namespace
  scheduleId := s.scheduleId
  intervalSecs := s.intervalSecs
  minStart := earliestEligibleIndex priced s.lastFireSecs s.intervalSecs tz
  durationSlots := reservedSlots scheduleDurations slotDurationMins s

def skipOf (s : ScheduleInfo) : SkippedSchedule where
  «namespace» := s.namespace
  scheduleId := s.scheduleId
  reason :=
    if priced.length ≤ earliestEligibleIndex priced s.lastFireSecs s.intervalSecs tz then
      horizonSkipReason lib s.lastFireSecs s.intervalSecs nowSecs
    else "job duration extends past the price horizon"

def Reaches (s : ScheduleInfo) : Prop :=
  earliestEligibleIndex priced s.lastFireSecs s.intervalSecs tz +
    reservedSlots scheduleDurations slotDurationMins s ≤ priced.length

instance (s : ScheduleInfo) :
    Decidable (Reaches scheduleDurations priced tz slotDurationMins s) :=
  inferInstanceAs (Decidable (_ ≤ _))

variable {lib scheduleDurations priced tz nowSecs slotDurationMins}
  {schedules : List ScheduleInfo}

theorem one_le_durationSlots (dur slotDurationMins : Nat) :
    1 ≤ durationSlots dur slotDurationMins := le_max_right _ _

theorem Reaches.lt (h : Reaches scheduleDurations priced tz slotDurationMins s) :
    earliestEligibleIndex priced s.lastFireSecs s.intervalSecs tz < priced.length := by
  have hs : 1 ≤ reservedSlots scheduleDurations slotDurationMins s := one_le_durationSlots _ _
  simp only [Reaches] at h
  omega

theorem classify_of_reaches (hslot : slotDurationMins ≠ 0)
    (h : Reaches scheduleDurations priced tz slotDurationMins s) :
    classify lib scheduleDurations priced tz nowSecs slotDurationMins s =
      some (.inl (jobOf scheduleDurations priced tz slotDurationMins s)) := by
  have hlt := h.lt
  simp only [Reaches, reservedSlots] at h
  simp only [classify, if_neg (Nat.not_le.2 hlt), if_neg hslot, if_neg (Nat.not_lt.2 h)]
  rfl

theorem classify_of_not_reaches (hslot : slotDurationMins ≠ 0)
    (h : ¬ Reaches scheduleDurations priced tz slotDurationMins s) :
    classify lib scheduleDurations priced tz nowSecs slotDurationMins s =
      some (.inr (skipOf lib priced tz nowSecs s)) := by
  simp only [Reaches, reservedSlots] at h
  by_cases hlt : priced.length ≤ earliestEligibleIndex priced s.lastFireSecs s.intervalSecs tz
  · simp only [classify, skipOf, if_pos hlt]
  · simp only [classify, skipOf, if_neg hlt, if_neg hslot, if_pos (Nat.not_le.1 h)]

theorem classify_zero
    (h : classify lib scheduleDurations priced tz nowSecs 0 s = some c) :
    c = .inr (skipOf lib priced tz nowSecs s) := by
  by_cases hlt : priced.length ≤ earliestEligibleIndex priced s.lastFireSecs s.intervalSecs tz
  · simp only [classify, if_pos hlt, Option.some.injEq] at h
    simp only [skipOf, if_pos hlt, ← h]
  · simp only [classify, if_neg hlt, if_true, reduceCtorEq] at h

theorem classify_cases
    (h : classify lib scheduleDurations priced tz nowSecs slotDurationMins s = some c) :
    (Reaches scheduleDurations priced tz slotDurationMins s ∧
      c = .inl (jobOf scheduleDurations priced tz slotDurationMins s)) ∨
    c = .inr (skipOf lib priced tz nowSecs s) := by
  by_cases hslot : slotDurationMins = 0
  · subst hslot
    exact .inr (classify_zero h)
  · by_cases hr : Reaches scheduleDurations priced tz slotDurationMins s
    · rw [classify_of_reaches hslot hr] at h
      exact .inl ⟨hr, (Option.some.inj h).symm⟩
    · rw [classify_of_not_reaches hslot hr] at h
      exact .inr (Option.some.inj h).symm

theorem classify_ref
    (h : classify lib scheduleDurations priced tz nowSecs slotDurationMins s = some c) :
    Sum.elim Job.ref SkippedSchedule.ref c = s.ref := by
  rcases classify_cases h with ⟨_, rfl⟩ | rfl
  · rfl
  · rfl

/-- The plan that comes of a classification: what was skipped, then the solved jobs. -/
def solvedPlan (lib : Libraries) (priced : List PricedWindow)
    (classified : List (Job ⊕ SkippedSchedule)) : PlanWindowsResult where
  assignments := (assignJobs lib (lefts classified) priced).assignments
  skipped := rights classified ++ (assignJobs lib (lefts classified) priced).skipped

theorem planAssignments_eq_some_iff :
    planAssignments lib schedules scheduleDurations priced tz nowSecs slotDurationMins = some r ↔
      ∃ classified,
        schedules.map (classify lib scheduleDurations priced tz nowSecs slotDurationMins) =
          classified.map some ∧ solvedPlan lib priced classified = r := by
  have hresult (classified : List (Job ⊕ SkippedSchedule)) :
      (if (lefts classified).isEmpty then some ⟨[], rights classified⟩
        else some (solvedPlan lib priced classified)) =
      some (solvedPlan lib priced classified) := by
    cases hj : lefts classified with
    | nil => simp only [List.isEmpty_nil, if_true, solvedPlan, hj, assignJobs_nil, List.append_nil]
    | cons job jobs => rfl
  simp only [solvedPlan] at hresult ⊢
  simp only [planAssignments, Option.pure_def, Option.bind_eq_bind, Option.bind_eq_some_iff,
    mapM_eq_some_iff, hresult, Option.some.injEq]

theorem mem_lefts {cs : List (α ⊕ β)} (h : a ∈ lefts cs) : Sum.inl a ∈ cs := by
  obtain ⟨c, hc, ha⟩ := List.mem_filterMap.1 h
  cases c with
  | inl b =>
    cases ha
    exact hc
  | inr b => cases ha

theorem mem_classified {classified : List (Job ⊕ SkippedSchedule)}
    (h : schedules.map (classify lib scheduleDurations priced tz nowSecs slotDurationMins) =
      classified.map some) (hjob : job ∈ lefts classified) :
    ∃ s ∈ schedules, Reaches scheduleDurations priced tz slotDurationMins s ∧
      job = jobOf scheduleDurations priced tz slotDurationMins s := by
  have hm := List.mem_map_of_mem (f := some) (mem_lefts hjob)
  rw [← h] at hm
  obtain ⟨s, hs, hc⟩ := List.mem_map.1 hm
  rcases classify_cases hc with ⟨hr, he⟩ | he
  · cases he
    exact ⟨s, hs, hr, rfl⟩
  · cases he

theorem jobsFit_classified {classified : List (Job ⊕ SkippedSchedule)}
    (h : schedules.map (classify lib scheduleDurations priced tz nowSecs slotDurationMins) =
      classified.map some) : JobsFit (lefts classified) priced.length := by
  intro job hjob
  obtain ⟨s, _, hr, rfl⟩ := mem_classified h hjob
  exact ⟨one_le_durationSlots _ _, hr⟩

/-- Every schedule comes out of the plan exactly once, whatever the solver answers. -/
theorem planAssignments_perm
    (h : planAssignments lib schedules scheduleDurations priced tz nowSecs slotDurationMins =
      some r) :
    (r.assignments.map ScheduleAssignment.scheduleRef ++
      r.skipped.map SkippedSchedule.ref).Perm (schedules.map ScheduleInfo.ref) := by
  obtain ⟨classified, hc, rfl⟩ := planAssignments_eq_some_iff.1 h
  have hrefs : classified.map (Sum.elim Job.ref SkippedSchedule.ref) =
      schedules.map ScheduleInfo.ref := by
    clear h
    induction schedules generalizing classified with
    | nil =>
      rw [List.map_nil, eq_comm, List.map_eq_nil_iff] at hc
      rw [hc]
      rfl
    | cons s schedules ih =>
      cases classified with
      | nil => cases hc
      | cons c classified =>
        rw [List.map_cons, List.map_cons, List.cons.injEq] at hc
        rw [List.map_cons, List.map_cons, classify_ref hc.1, ih classified hc.2]
  have hjobs := assignJobs_perm lib (lefts classified) priced
  have hsplit := split_perm Job.ref SkippedSchedule.ref classified
  rw [hrefs] at hsplit
  simp only [solvedPlan, List.map_append]
  refine (List.perm_append_comm_assoc _ _ _).trans ?_
  refine (hjobs.append_left _).trans ?_
  exact List.perm_append_comm.trans hsplit

theorem mem_planAssignments
    (h : planAssignments lib schedules scheduleDurations priced tz nowSecs slotDurationMins =
      some r) (ha : a ∈ r.assignments) :
    ∃ s ∈ schedules, ∃ t : Fin priced.length,
      earliestEligibleIndex priced s.lastFireSecs s.intervalSecs tz ≤ t ∧
      t + reservedSlots scheduleDurations slotDurationMins s ≤ priced.length ∧
      a = ⟨s.ref, (priced.get t).toChosen, s.intervalSecs⟩ := by
  obtain ⟨classified, hc, rfl⟩ := planAssignments_eq_some_iff.1 h
  obtain ⟨j, t, hl, rfl⟩ := mem_assignJobs ha
  obtain ⟨s, hs, _, hj⟩ := mem_classified hc (List.getElem_mem j.isLt)
  refine ⟨s, hs, t, ?_, ?_, ?_⟩
  · exact le_of_eq_of_le (by rw [List.get_eq_getElem, hj]; rfl) hl.1
  · exact le_of_eq_of_le (by rw [List.get_eq_getElem, hj]; rfl) hl.2
  · rw [List.get_eq_getElem, hj]
    rfl

variable (lib scheduleDurations priced tz nowSecs) in
theorem map_classify (hslot : slotDurationMins ≠ 0) (schedules : List ScheduleInfo) :
    ∃ classified,
      schedules.map (classify lib scheduleDurations priced tz nowSecs slotDurationMins) =
        classified.map some ∧
      lefts classified = (schedules.filter fun s =>
        Reaches scheduleDurations priced tz slotDurationMins s).map
          (jobOf scheduleDurations priced tz slotDurationMins) ∧
      rights classified = (schedules.filter fun s =>
        ¬ Reaches scheduleDurations priced tz slotDurationMins s).map
          (skipOf lib priced tz nowSecs) := by
  induction schedules with
  | nil => exact ⟨[], rfl, rfl, rfl⟩
  | cons s schedules ih =>
    obtain ⟨classified, hc, hl, hr⟩ := ih
    by_cases hs : Reaches scheduleDurations priced tz slotDurationMins s
    · refine ⟨.inl (jobOf scheduleDurations priced tz slotDurationMins s) :: classified, ?_, ?_, ?_⟩
      · rw [List.map_cons, classify_of_reaches hslot hs, hc, List.map_cons]
      · rw [lefts_inl, hl, List.filter_cons_of_pos (by simpa using hs), List.map_cons]
      · rw [rights_inl, hr, List.filter_cons_of_neg (by simpa using hs)]
    · refine ⟨.inr (skipOf lib priced tz nowSecs s) :: classified, ?_, ?_, ?_⟩
      · rw [List.map_cons, classify_of_not_reaches hslot hs, hc, List.map_cons]
      · rw [lefts_inr, hl, List.filter_cons_of_neg (by simpa using hs)]
      · rw [rights_inr, hr, List.filter_cons_of_pos (by simpa using hs), List.map_cons]

end Classify

end Gridshift
