import Gridshift.PlanComposition

namespace Gridshift
open BinaryProgram Sorting
set_option autoImplicit true

section Longer
variable {scheduleDurations : ScheduleRef → Option Nat} {priced priced' : List PricedWindow}
  {tz : Tz} {slotMins : Nat}

theorem earliestEligibleIndex_of_longer (h : priced <+: priced')
    (hlt : earliestEligibleIndex priced last intervalSecs tz < priced.length) :
    earliestEligibleIndex priced' last intervalSecs tz =
      earliestEligibleIndex priced last intervalSecs tz := by
  obtain ⟨more, rfl⟩ := h
  cases last with
  | none => rfl
  | some lastFire =>
    simp only [earliestEligibleIndex] at hlt ⊢
    cases hfound : priced.findIdx? fun w => fireFloor lastFire intervalSecs ≤ slotEpoch w tz with
    | none =>
      rw [hfound] at hlt
      exact absurd hlt (lt_irrefl _)
    | some k => rw [List.findIdx?_append, hfound, Option.some_or, Option.getD_some,
        Option.getD_some]

/-- What a schedule may do in a pool it may do in one that goes on after it. -/
theorem jobOf_of_longer (h : priced <+: priced')
    (hr : Reaches scheduleDurations priced tz slotMins s) :
    jobOf scheduleDurations priced' tz slotMins s = jobOf scheduleDurations priced tz slotMins s := by
  rw [jobOf, earliestEligibleIndex_of_longer h hr.lt]
  rfl

theorem Reaches.of_longer (hr : Reaches scheduleDurations priced tz slotMins s)
    (h : priced <+: priced') : Reaches scheduleDurations priced' tz slotMins s := by
  rw [Reaches, earliestEligibleIndex_of_longer h hr.lt]
  exact Nat.le_trans hr h.length_le

theorem placedJobs_eq_of_longer (h : priced <+: priced') (schedules : List ScheduleInfo) :
    placedJobs schedules scheduleDurations priced tz slotMins =
      (schedules.filter fun s => Reaches scheduleDurations priced tz slotMins s).map
        (jobOf scheduleDurations priced' tz slotMins) := by
  apply List.map_congr_left
  intro s hs
  exact (jobOf_of_longer h (of_decide_eq_true (List.mem_filter.1 hs).2)).symm

theorem placedJobs_sublist (h : priced <+: priced') (schedules : List ScheduleInfo) :
    (placedJobs schedules scheduleDurations priced tz slotMins).Sublist
      (placedJobs schedules scheduleDurations priced' tz slotMins) := by
  rw [placedJobs_eq_of_longer h]
  apply List.Sublist.map
  apply List.monotone_filter_right
  intro s hs
  exact decide_eq_true ((of_decide_eq_true hs).of_longer h)

theorem placedJobs_of_reached (h : priced <+: priced') {schedules : List ScheduleInfo}
    (hreached : ∀ s ∈ schedules, Reaches scheduleDurations priced' tz slotMins s →
      Reaches scheduleDurations priced tz slotMins s) :
    placedJobs schedules scheduleDurations priced' tz slotMins =
      placedJobs schedules scheduleDurations priced tz slotMins := by
  rw [placedJobs_eq_of_longer h]
  apply congrArg (List.map _)
  apply List.filter_congr
  intro s hs
  exact decide_eq_decide.2 ⟨hreached s hs, fun hr => hr.of_longer h⟩

theorem placedJobs_reaching (schedules : List ScheduleInfo) :
    placedJobs (schedules.filter fun s => Reaches scheduleDurations priced tz slotMins s)
        scheduleDurations priced tz slotMins =
      placedJobs schedules scheduleDurations priced tz slotMins := by
  simp only [placedJobs, List.filter_filter, Bool.and_self]

/-- A plan's starts are at hand for the same jobs in a pool that goes on after its own. -/
theorem AnsweredPlan.Optimal.cost_le_of_longer (h : priced <+: priced')
    {p' : AnsweredPlan schedules' scheduleDurations priced' tz slotMins} (hp' : p'.Optimal)
    (p : AnsweredPlan schedules scheduleDurations priced tz slotMins)
    (hjobs : p'.jobs = p.jobs) : p'.cost ≤ p.cost := by
  obtain ⟨s, hs⟩ := p.exists_cost
  obtain ⟨a, ha⟩ : ∃ a : Assignment p.jobs priced'.length,
      a.cost (priced'.map PricedWindow.pricePPerKwh) =
        s.cost (priced.map PricedWindow.pricePPerKwh) :=
    s.exists_widened (List.length_map _) (List.length_map _) (h.map PricedWindow.pricePPerKwh)
  rw [hs, ← ha]
  exact hp'.cost_le_of_jobs hjobs a

end Longer

theorem pricePool_isLonger (tz : Tz) (now : Int) (todayWindows tomorrowWindows : List PricedWindow) :
    pricePool tz now todayWindows none <+: pricePool tz now todayWindows (some tomorrowWindows) := by
  rw [pricePool, pricePool, Option.getD_none, List.append_nil]
  exact List.prefix_append _ _

/-- Once tomorrow's prices are out, a plan assigns every schedule that it would assign without them,
and is charged no more unless they bring other schedules in; where no price is negative, it is then
charged at most what a plan for those others adds. -/
theorem plan_with_tomorrow (schedules : List ScheduleInfo)
    (scheduleDurations : ScheduleRef → Option Nat) (tz : Tz) (slotMins : Nat)
    (hslot : 1 ≤ slotMins) (now : Int) (todayWindows tomorrowWindows priced priced' :
      List PricedWindow)
    (hpool : priced = pricePool tz now todayWindows none)
    (hpool' : priced' = pricePool tz now todayWindows (some tomorrowWindows))
    (p : AnsweredPlan schedules scheduleDurations priced tz slotMins)
    (p' : AnsweredPlan schedules scheduleDurations priced' tz slotMins) (hp' : p'.Optimal) :
    (∃ assignments assignments', p.assignments = some assignments ∧
      p'.assignments = some assignments' ∧
      (assignments.map ScheduleAssignment.scheduleRef).Sublist
        (assignments'.map ScheduleAssignment.scheduleRef)) ∧
    ((∀ s ∈ schedules, Reaches scheduleDurations priced' tz slotMins s →
      Reaches scheduleDurations priced tz slotMins s) → p'.cost ≤ p.cost) ∧
    ((∀ w ∈ priced', 0 ≤ w.pricePPerKwh) →
      ∀ r : AnsweredPlan (schedules.filter fun s => ¬ Reaches scheduleDurations priced tz slotMins s)
        scheduleDurations priced' tz slotMins, p'.cost ≤ p.cost + r.cost) := by
  have hprefix : priced <+: priced' := hpool ▸ hpool' ▸ pricePool_isLonger _ _ _ _
  refine ⟨?_, ?_, ?_⟩
  · obtain ⟨assignments, hassignments, hrefs⟩ := p.exists_assigned hslot
    obtain ⟨assignments', hassignments', hrefs'⟩ := p'.exists_assigned hslot
    refine ⟨assignments, assignments', hassignments, hassignments', ?_⟩
    rw [hrefs, hrefs']
    exact (placedJobs_sublist hprefix schedules).map Job.ref
  · intro hreached
    exact hp'.cost_le_of_longer hprefix p (placedJobs_of_reached hprefix hreached)
  · intro hpos r
    obtain ⟨q, hq⟩ := AnsweredPlan.exists_optimal
      (schedules.filter fun s => Reaches scheduleDurations priced tz slotMins s)
      scheduleDurations priced' tz slotMins
    have hsplit : schedules ⊆
        (schedules.filter fun s => Reaches scheduleDurations priced tz slotMins s) ++
          schedules.filter fun s => ¬ Reaches scheduleDurations priced tz slotMins s := by
      intro s hs
      by_cases hr : Reaches scheduleDurations priced tz slotMins s
      · exact List.mem_append_left _ (List.mem_filter.2 ⟨hs, decide_eq_true hr⟩)
      · exact List.mem_append_right _ (List.mem_filter.2 ⟨hs, decide_eq_true hr⟩)
    have hqcost : q.cost ≤ p.cost := by
      apply hq.cost_le_of_longer hprefix p
      apply (placedJobs_of_reached hprefix _).trans (placedJobs_reaching schedules)
      intro s hs _
      exact of_decide_eq_true (List.mem_filter.1 hs).2
    exact (hp'.cost_le_add hpos hsplit q r).trans (add_le_add_left hqcost _)

section Sample

def lateWindows : List PricedWindow := [⟨0, 23, 0, 9⟩, ⟨0, 23, 30, 8⟩]

def earlyWindows : List PricedWindow := [⟨1, 0, 0, 2⟩, ⟨1, 0, 30, -1⟩]

theorem plan_with_tomorrow_lateWindows :
    ∃ (p : AnsweredPlan [unfired] (fun _ => some 60)
        (pricePool (WallClock.Zone.fixed 0) 0 lateWindows none) (WallClock.Zone.fixed 0) 30)
      (p' : AnsweredPlan [unfired] (fun _ => some 60)
        (pricePool (WallClock.Zone.fixed 0) 0 lateWindows (some earlyWindows))
        (WallClock.Zone.fixed 0) 30),
      p.Optimal ∧ p'.Optimal ∧ p'.cost ≤ p.cost := by
  obtain ⟨p, hp⟩ := AnsweredPlan.exists_optimal [unfired] (fun _ => some 60)
    (pricePool (WallClock.Zone.fixed 0) 0 lateWindows none) (WallClock.Zone.fixed 0) 30
  obtain ⟨p', hp'⟩ := AnsweredPlan.exists_optimal [unfired] (fun _ => some 60)
    (pricePool (WallClock.Zone.fixed 0) 0 lateWindows (some earlyWindows))
    (WallClock.Zone.fixed 0) 30
  have hcost := (plan_with_tomorrow [unfired] (fun _ => some 60) _ 30 (by decide) 0 lateWindows
    earlyWindows _ _ rfl rfl p p' hp').2.1
  exact ⟨p, p', hp, hp', hcost (by decide)⟩

end Sample

end Gridshift
