import Gridshift.AnsweredPlan
import Gridshift.SharedWindows
import Gridshift.Workflow

namespace Gridshift
open BinaryProgram SharedWindows Sorting
set_option autoImplicit true

theorem Assignment.cost_eq_charge (s : Assignment jobs nSlots) (prices : List Rat) :
    s.cost prices =
      charge (fun t => prices.getD t 0) s.start fun j => (jobs.get j).durationSlots := rfl

theorem getD_nonneg_of_forall {prices : List Rat} (hpos : ∀ p ∈ prices, 0 ≤ p) (t : Nat) :
    0 ≤ prices.getD t 0 := by
  rw [List.getD_eq_getElem?_getD]
  cases h : prices[t]? with
  | none => exact le_rfl
  | some p => exact hpos p (List.mem_of_getElem? h)

section Parts
variable {jobs js js' : List Job} {prices : List Rat} (hpos : ∀ p ∈ prices, 0 ≤ p)
include hpos

/-- Jobs that are all among some that have starts take theirs. -/
theorem exists_assignment_of_starts {ι : Type} [Fintype ι] {start : ι → Nat} {job : ι → Job}
    (hlegal : ∀ i, (job i).LegalStart nSlots (start i)) (h : ∀ j ∈ jobs, ∃ i, job i = j) :
    ∃ a : Assignment jobs nSlots, a.cost prices ≤
      charge (fun t => prices.getD t 0) start fun i => (job i).durationSlots := by
  have hindex (j : Fin jobs.length) : ∃ i, job i = jobs.get j := h _ (List.get_mem jobs j)
  choose f hf using hindex
  refine ⟨⟨start ∘ f, fun j => hf j ▸ hlegal (f j)⟩, ?_⟩
  have hlength : (fun j => (jobs.get j).durationSlots) = (fun i => (job i).durationSlots) ∘ f :=
    funext fun j => congrArg Job.durationSlots (hf j).symm
  rw [Assignment.cost_eq_charge, hlength]
  exact charge_comp_le (getD_nonneg_of_forall hpos) _ _ f

/-- Some of the jobs keep their starts. -/
theorem Assignment.exists_restricted (s : Assignment js nSlots) (h : jobs ⊆ js) :
    ∃ a : Assignment jobs nSlots, a.cost prices ≤ s.cost prices :=
  exists_assignment_of_starts hpos s.legal fun _ hj => List.mem_iff_get.1 (h hj)

/-- Jobs that are all in one of two groups start as they do there. -/
theorem Assignment.exists_gathered (s : Assignment js nSlots) (s' : Assignment js' nSlots)
    (h : jobs ⊆ js ++ js') :
    ∃ a : Assignment jobs nSlots, a.cost prices ≤ s.cost prices + s'.cost prices := by
  have hlegal (i : Fin js.length ⊕ Fin js'.length) :
      (Sum.elim js.get js'.get i).LegalStart nSlots (Sum.elim s.start s'.start i) := by
    cases i with
    | inl i => exact s.legal i
    | inr i => exact s'.legal i
  have hindex : ∀ job ∈ jobs, ∃ i, Sum.elim js.get js'.get i = job := by
    intro job hjob
    rcases List.mem_append.1 (h hjob) with hj | hj
    · obtain ⟨i, hi⟩ := List.mem_iff_get.1 hj
      exact ⟨.inl i, hi⟩
    · obtain ⟨i, hi⟩ := List.mem_iff_get.1 hj
      exact ⟨.inr i, hi⟩
  obtain ⟨a, ha⟩ := exists_assignment_of_starts hpos hlegal hindex
  refine ⟨a, ha.trans ?_⟩
  have hlength : (fun i => (Sum.elim js.get js'.get i).durationSlots) =
      Sum.elim (fun i => (js.get i).durationSlots) (fun i => (js'.get i).durationSlots) := by
    funext i
    cases i with
    | inl i => rfl
    | inr i => rfl
  rw [hlength]
  exact charge_elim_le (getD_nonneg_of_forall hpos) _ _ _ _

end Parts

/-- In a pool that goes on after a plan's own, its starts are as legal and cost the same. -/
theorem Assignment.exists_widened {prices prices' : List Rat} (s : Assignment jobs nSlots)
    (hlength : prices.length = nSlots) (hlength' : prices'.length = nSlots')
    (h : prices <+: prices') :
    ∃ a : Assignment jobs nSlots', a.cost prices' = s.cost prices := by
  have hle : nSlots ≤ nSlots' := hlength ▸ hlength' ▸ h.length_le
  refine ⟨⟨s.start, fun j => ⟨(s.legal j).1, (s.legal j).2.trans hle⟩⟩, ?_⟩
  rw [cost_eq_charge, cost_eq_charge]
  apply charge_congr
  intro j i hi
  have hlt : s.start j + i < prices.length := by
    have hend := (s.legal j).2
    omega
  obtain ⟨more, rfl⟩ := h
  exact List.getD_append _ _ _ _ hlt

section Cost
variable {schedules : List ScheduleInfo} {scheduleDurations : ScheduleRef → Option Nat}
  {priced : List PricedWindow} {tz : Tz} {slotMins : Nat}

/-- What the solver's answer is charged. -/
def AnsweredPlan.cost (p : AnsweredPlan schedules scheduleDurations priced tz slotMins) : Rat :=
  (planModel p.jobs priced.length (priced.map PricedWindow.pricePPerKwh)).objective.eval p.ρ

theorem AnsweredPlan.exists_cost
    (p : AnsweredPlan schedules scheduleDurations priced tz slotMins) :
    ∃ s : Assignment p.jobs priced.length,
      p.cost = s.cost (priced.map PricedWindow.pricePPerKwh) := by
  obtain ⟨s, hs, -⟩ := p.exists_assignment
  exact ⟨s, (eval_congr_vars hs).trans (s.objective_encode p.fit)⟩

theorem AnsweredPlan.Optimal.cost_le
    {p : AnsweredPlan schedules scheduleDurations priced tz slotMins} (h : p.Optimal)
    (s : Assignment p.jobs priced.length) :
    p.cost ≤ s.cost (priced.map PricedWindow.pricePPerKwh) :=
  (h.2 s.encode (s.feasible_encode p.fit)).trans_eq (s.objective_encode p.fit)

theorem AnsweredPlan.Optimal.cost_le_of_jobs
    {p : AnsweredPlan schedules scheduleDurations priced tz slotMins} (h : p.Optimal)
    (hjobs : p.jobs = js) (s : Assignment js priced.length) :
    p.cost ≤ s.cost (priced.map PricedWindow.pricePPerKwh) := by
  subst hjobs
  exact h.cost_le s

/-- An answered plan assigns every job that it was given, in their order. -/
theorem AnsweredPlan.exists_assigned
    (p : AnsweredPlan schedules scheduleDurations priced tz slotMins) (hslot : 1 ≤ slotMins) :
    ∃ assignments, p.assignments = some assignments ∧
      assignments.map ScheduleAssignment.scheduleRef = p.jobs.map Job.ref := by
  obtain ⟨s, -, hstart⟩ := p.exists_assignment
  refine ⟨_, p.assignments_eq hslot hstart, ?_⟩
  have hrefs := congrArg (List.map Job.ref) (List.map_getElem_finRange p.jobs)
  rw [List.map_map] at hrefs
  rw [List.map_map]
  exact hrefs

theorem placedJobs_subset {left : List ScheduleInfo} (h : left ⊆ schedules) :
    placedJobs left scheduleDurations priced tz slotMins ⊆
      placedJobs schedules scheduleDurations priced tz slotMins := by
  intro job hjob
  obtain ⟨s, hs, hr, rfl⟩ := mem_placedJobs.1 hjob
  exact mem_placedJobs.2 ⟨s, h hs, hr, rfl⟩

theorem placedJobs_append (left right : List ScheduleInfo) :
    placedJobs (left ++ right) scheduleDurations priced tz slotMins =
      placedJobs left scheduleDurations priced tz slotMins ++
        placedJobs right scheduleDurations priced tz slotMins := by
  rw [placedJobs, List.filter_append, List.map_append]
  rfl

theorem placedJobs_flatMap (f : α → List ScheduleInfo) (l : List α) :
    placedJobs (l.flatMap f) scheduleDurations priced tz slotMins =
      l.flatMap fun a => placedJobs (f a) scheduleDurations priced tz slotMins := by
  rw [placedJobs, List.filter_flatMap, List.map_flatMap]
  rfl

theorem placedJobs_perm {left : List ScheduleInfo} (h : left.Perm schedules) :
    (placedJobs left scheduleDurations priced tz slotMins).Perm
      (placedJobs schedules scheduleDurations priced tz slotMins) :=
  (h.filter _).map _

theorem prices_nonneg (hpos : ∀ w ∈ priced, 0 ≤ w.pricePPerKwh) :
    ∀ q ∈ priced.map PricedWindow.pricePPerKwh, 0 ≤ q := by
  intro q hq
  obtain ⟨w, hw, rfl⟩ := List.mem_map.1 hq
  exact hpos w hw

theorem AnsweredPlan.Optimal.cost_le_of_subset {left : List ScheduleInfo}
    (hpos : ∀ w ∈ priced, 0 ≤ w.pricePPerKwh)
    {q : AnsweredPlan left scheduleDurations priced tz slotMins} (hq : q.Optimal)
    (h : left ⊆ schedules) (p : AnsweredPlan schedules scheduleDurations priced tz slotMins) :
    q.cost ≤ p.cost := by
  obtain ⟨s, hs⟩ := p.exists_cost
  obtain ⟨a, ha⟩ := s.exists_restricted (prices_nonneg hpos) (placedJobs_subset h)
  rw [hs]
  exact (hq.cost_le a).trans ha

theorem AnsweredPlan.Optimal.cost_le_add {left right : List ScheduleInfo}
    (hpos : ∀ w ∈ priced, 0 ≤ w.pricePPerKwh)
    {p : AnsweredPlan schedules scheduleDurations priced tz slotMins} (hp : p.Optimal)
    (h : schedules ⊆ left ++ right)
    (q : AnsweredPlan left scheduleDurations priced tz slotMins)
    (r : AnsweredPlan right scheduleDurations priced tz slotMins) :
    p.cost ≤ q.cost + r.cost := by
  obtain ⟨s, hs⟩ := q.exists_cost
  obtain ⟨s', hs'⟩ := r.exists_cost
  have hjobs : p.jobs ⊆ q.jobs ++ r.jobs := by
    have hsub : p.jobs ⊆ placedJobs (left ++ right) scheduleDurations priced tz slotMins :=
      placedJobs_subset h
    rwa [placedJobs_append] at hsub
  obtain ⟨a, ha⟩ := s.exists_gathered (prices_nonneg hpos) s' hjobs
  rw [hs, hs']
  exact (hp.cost_le a).trans ha

theorem AnsweredPlan.cost_of_nil (p : AnsweredPlan [] scheduleDurations priced tz slotMins) :
    p.cost = 0 := by
  obtain ⟨s, hs⟩ := p.exists_cost
  exact hs.trans rfl

end Cost

section Namespaces
variable (scheduleDurations : ScheduleRef → Option Nat) (priced : List PricedWindow) (tz : Tz)
  (slotMins : Nat)

theorem cost_le_sum (hpos : ∀ w ∈ priced, 0 ≤ w.pricePPerKwh)
    {outcomes : List (String × Except String DiscoverSchedulesResult)}
    (q : ∀ o, AnsweredPlan (discovered o) scheduleDurations priced tz slotMins)
    {schedules : List ScheduleInfo} (h : schedules ⊆ outcomes.flatMap discovered)
    {p : AnsweredPlan schedules scheduleDurations priced tz slotMins} (hp : p.Optimal) :
    p.cost ≤ (outcomes.map fun o => (q o).cost).sum := by
  induction outcomes generalizing schedules with
  | nil =>
    cases List.subset_nil.1 h
    exact p.cost_of_nil.le
  | cons o outcomes ih =>
    obtain ⟨r, hr⟩ := AnsweredPlan.exists_optimal (outcomes.flatMap discovered) scheduleDurations
      priced tz slotMins
    rw [List.map_cons, List.sum_cons]
    exact (hp.cost_le_add hpos h (q o) r).trans (add_le_add_right (ih (List.Subset.refl _) hr) _)

/-- One plan over the schedules of all namespaces, as the workflow makes it, against a plan for each
of them: it places the same schedules, is charged no more than the plans together, and no less than
any one of them. -/
theorem joint_plan (hslot : 1 ≤ slotMins) (hpos : ∀ w ∈ priced, 0 ≤ w.pricePPerKwh)
    (outcomes : List (String × Except String DiscoverSchedulesResult))
    (p : AnsweredPlan (sortSchedules (outcomes.flatMap discovered)) scheduleDurations priced tz
      slotMins)
    (q : ∀ o, AnsweredPlan (discovered o) scheduleDurations priced tz slotMins)
    (hp : p.Optimal) (hq : ∀ o, (q o).Optimal) :
    (∃ (assignments : List ScheduleAssignment)
        (parts : String × Except String DiscoverSchedulesResult → List ScheduleAssignment),
      p.assignments = some assignments ∧ (∀ o, (q o).assignments = some (parts o)) ∧
      (assignments.map ScheduleAssignment.scheduleRef).Perm
        (outcomes.flatMap fun o => (parts o).map ScheduleAssignment.scheduleRef)) ∧
    p.cost ≤ (outcomes.map fun o => (q o).cost).sum ∧
    ∀ o ∈ outcomes, (q o).cost ≤ p.cost := by
  have hperm : (sortSchedules (outcomes.flatMap discovered)).Perm (outcomes.flatMap discovered) :=
    List.perm_insertionSort _ _
  refine ⟨?_, cost_le_sum _ _ _ _ hpos q hperm.subset hp, ?_⟩
  · obtain ⟨assignments, hassignments, hrefs⟩ := p.exists_assigned hslot
    choose parts hparts hpartrefs using fun o => (q o).exists_assigned hslot
    refine ⟨assignments, parts, hassignments, hparts, ?_⟩
    rw [hrefs]
    apply ((placedJobs_perm hperm).map Job.ref).trans
    rw [placedJobs_flatMap, List.map_flatMap]
    exact .of_eq (List.flatMap_congr fun o _ => (hpartrefs o).symm)
  · intro o ho
    apply (hq o).cost_le_of_subset hpos
    intro s hs
    exact hperm.mem_iff.2 (List.mem_flatMap.2 ⟨o, ho, hs⟩)

end Namespaces

section Sample

def twoOutcomes : List (String × Except String DiscoverSchedulesResult) :=
  [("east", .ok ⟨[⟨"east", "backup", 86400, none⟩], [], 30⟩),
    ("west", .ok ⟨[⟨"west", "report", 86400, none⟩], [], 30⟩)]

theorem joint_plan_twoOutcomes :
    ∃ (p : AnsweredPlan (sortSchedules (twoOutcomes.flatMap discovered)) (fun _ => none)
        [⟨19723, 0, 0, 5⟩, ⟨19723, 0, 30, 7⟩] (WallClock.Zone.fixed 0) 30)
      (q : ∀ o, AnsweredPlan (discovered o) (fun _ => none)
        [⟨19723, 0, 0, 5⟩, ⟨19723, 0, 30, 7⟩] (WallClock.Zone.fixed 0) 30),
      p.Optimal ∧ p.cost ≤ (twoOutcomes.map fun o => (q o).cost).sum := by
  obtain ⟨p, hp⟩ := AnsweredPlan.exists_optimal (sortSchedules (twoOutcomes.flatMap discovered))
    (fun _ => none) [⟨19723, 0, 0, 5⟩, ⟨19723, 0, 30, 7⟩] (WallClock.Zone.fixed 0) 30
  choose q hq using fun o => AnsweredPlan.exists_optimal (discovered o)
    (fun _ => none) [⟨19723, 0, 0, 5⟩, ⟨19723, 0, 30, 7⟩] (WallClock.Zone.fixed 0) 30
  have hpos : ∀ w ∈ ([⟨19723, 0, 0, 5⟩, ⟨19723, 0, 30, 7⟩] : List PricedWindow),
      0 ≤ w.pricePPerKwh := by decide
  exact ⟨p, q, hp, (joint_plan _ _ _ _ (by decide) hpos twoOutcomes p q hp hq).2.1⟩

end Sample

end Gridshift
