import Gridshift.Bookkeeping
import Gridshift.CompletionOrder
import Gridshift.PricePool

namespace Gridshift
open Sorting
set_option autoImplicit true

/-- An interval schedule that discovery finds with no firing on record. -/
structure World.NeverFired (world : World Calendar) (query : String) (ref : ScheduleRef)
    (firstAction : Int) : Prop where
  client : world.discovery.clientFor ref.namespace = .ok ()
  listed : ∃ ids, (world.discovery.listSchedules ref.namespace query).mapM id = .ok ids ∧
    ref.scheduleId ∈ ids
  described : ∃ desc everySecs, world.discovery.describe ref = .ok desc ∧
    firstIntervalSecs desc.spec = some everySecs ∧ 0 < everySecs ∧
    lastFireSecs desc.recentActions = none ∧
    nextFireSecs desc.futureActionTimes = some firstAction

/-- The price pool that the workflow builds. -/
def World.pool (world : World Calendar) (tz : Tz) (now : Int) (timezone : String) :
    Except String (List PricedWindow) := do
  let todayWindows ← world.fetchPricedWindows ⟨today tz now, timezone⟩
  let tomorrowResult ← world.tryFetchPricedWindows ⟨today tz now + 1, timezone⟩
  return pricePool tz now todayWindows tomorrowResult.windows

/-- The rates whose slots make up the pool. -/
def poolRates (tz : Tz) (now : Int) (todays : List OctopusRate)
    (tomorrows : Option (List OctopusRate)) : List OctopusRate :=
  todays.filter (keeps tz now) ++ tomorrows.getD []

/-- The instant at which the last priced slot ends. -/
def IsPoolEnd (slotMins : Nat) (rates : List OctopusRate) (e : Int) : Prop :=
  IsGreatest {e | ∃ r ∈ rates, r.validFrom + slotMins * 60 = e} e

theorem World.pool_eq {world : World Calendar}
    (htoday : world.fetchPricedWindows ⟨today tz now, timezone⟩ =
      .ok (todays.map (rateWindow tz)))
    (htomorrow : world.tryFetchPricedWindows ⟨today tz now + 1, timezone⟩ =
      .ok ⟨tomorrows.map (List.map (rateWindow tz)), message⟩) :
    world.pool tz now timezone =
      .ok ((poolRates tz now todays tomorrows).map (rateWindow tz)) := by
  rw [World.pool, htoday, htomorrow, poolRates, List.map_append]
  change Except.ok (pricePool tz now _ _) = _
  rw [pricePool, List.filter_map]
  cases tomorrows with
  | none => rfl
  | some rates => rfl

theorem exists_isPoolEnd (slotMins : Nat) {rates : List OctopusRate} (hne : rates ≠ []) :
    ∃ e, IsPoolEnd slotMins rates e := by
  have hmap : rates.map (fun r => r.validFrom + (slotMins : Int) * 60) ≠ [] := by
    simpa only [ne_eq, List.map_eq_nil_iff] using hne
  obtain ⟨e, he⟩ := Option.ne_none_iff_exists'.1 (mt List.max?_eq_none_iff.1 hmap)
  obtain ⟨hmem, hle⟩ := List.max?_eq_some_iff.1 he
  refine ⟨e, List.mem_map.1 hmem, ?_⟩
  intro e' he'
  exact hle e' (List.mem_map.2 he')

/-- All that is asked of a schedule that has never fired is that its first action comes before
the bound. -/
theorem World.NeverFired.probed {world : World Calendar}
    (h : world.NeverFired query ref F) (horizonSecs : Int) :
    (F < horizonSecs ∧ ∃ s, describeOne world.discovery ⟨ref.namespace, query, horizonSecs⟩
      ref.scheduleId = .inl s) ∨
    (horizonSecs ≤ F ∧ ∃ s, describeOne world.discovery ⟨ref.namespace, query, horizonSecs⟩
      ref.scheduleId = .inr s) := by
  obtain ⟨desc, everySecs, hdesc, hsecs, hpos, hlast, hnext⟩ := h.described
  have hprobe (nowSecs : Int) : probeSchedule nowSecs horizonSecs (.ok desc) =
      if horizonSecs ≤ F then
        .error s!"next run in {(saturatingSub F nowSecs).tdiv secsPerDay}d, outside the price horizon"
      else .ok (everySecs, none) := by
    simp only [probeSchedule, hsecs, hlast, hnext, if_neg (Nat.ne_of_gt hpos), Option.isNone_none,
      Option.any_some, decide_eq_true_eq, true_and, Option.getD_some]
  simp only [describeOne, hdesc, Except.mapError, hprobe]
  by_cases hle : horizonSecs ≤ F
  · rw [if_pos hle]
    exact .inr ⟨hle, _, rfl⟩
  · rw [if_neg hle]
    exact .inl ⟨not_le.1 hle, _, rfl⟩

theorem World.describeOne_of_mem_schedules {world : World Calendar}
    (h : ref ∈ (world.schedules o query horizonSecs namespaces).map ScheduleInfo.ref) :
    ∃ s, describeOne world.discovery ⟨ref.namespace, query, horizonSecs⟩ ref.scheduleId =
      .inl s := by
  obtain ⟨s, hs, rfl⟩ := List.mem_map.1 h
  have hs := (sortSchedules_perm _).mem_iff.1 hs
  rw [World.outcomes_eq, List.flatMap_map] at hs
  obtain ⟨ns, -, hs⟩ := List.mem_flatMap.1 hs
  rcases discovered_cases _ _ _ _ _ with hnil | ⟨ids, -, hperm⟩
  · rw [hnil] at hs
    cases hs
  · obtain ⟨id, -, hid⟩ := List.mem_map.1 (mem_lefts (hperm.mem_iff.1 hs))
    have href := describeOne_ref world.discovery ⟨ns, query, horizonSecs⟩ id
    rw [hid] at href
    obtain ⟨hns, hsid⟩ := ScheduleRef.mk.inj href
    exact ⟨s, by rw [← hid]; simp only [ScheduleInfo.ref, hns, hsid]⟩

section Listed
variable {world : World Calendar} {ref : ScheduleRef} {namespaces : List String}
  (hns : ref.namespace ∈ namespaces) (h : world.NeverFired query ref F) (o : Orders)
  (horizonSecs : Int)
include hns h

theorem World.NeverFired.mem_outcomes :
    ∃ r, (ref.namespace, .ok r) ∈ world.outcomes o query horizonSecs namespaces ∧
      (∀ s, describeOne world.discovery ⟨ref.namespace, query, horizonSecs⟩
        ref.scheduleId = .inl s → s ∈ r.schedules) ∧
      ∀ s, describeOne world.discovery ⟨ref.namespace, query, horizonSecs⟩
        ref.scheduleId = .inr s → s ∈ r.skipped := by
  obtain ⟨ids, hids, hid⟩ := h.listed
  have hlisted : listedIds world.discovery ⟨ref.namespace, query, horizonSecs⟩ = .ok ids := hids
  have hresult := discoverSchedules_of_listed world.slotDurationMins (o.describes ref.namespace)
    h.client hlisted
  have hmem := List.mem_map_of_mem (f := describeOne world.discovery
    ⟨ref.namespace, query, horizonSecs⟩) ((o.describes ref.namespace).mem_run.2 hid)
  have hout : (ref.namespace, discoverSchedules world.discovery world.slotDurationMins
      (o.describes ref.namespace) ⟨ref.namespace, query, horizonSecs⟩) ∈
        world.outcomes o query horizonSecs namespaces := by
    rw [World.outcomes_eq]
    exact List.mem_map.2 ⟨ref.namespace, o.namespaces.mem_run.2 hns, rfl⟩
  rw [hresult] at hout
  refine ⟨_, hout, ?_, ?_⟩
  · intro s hs
    rw [hs] at hmem
    exact (List.mem_insertionSort _).2 (List.mem_filterMap.2 ⟨_, hmem, rfl⟩)
  · intro s hs
    rw [hs] at hmem
    exact List.mem_filterMap.2 ⟨_, hmem, rfl⟩

/-- A schedule that has never fired reaches the planner when its first action comes before the
bound, and is reported as skipped otherwise. -/
theorem World.NeverFired.let_through :
    (ref ∈ (world.schedules o query horizonSecs namespaces).map ScheduleInfo.ref ↔
      F < horizonSecs) ∧
    (horizonSecs ≤ F → ref ∈ ((world.outcomes o query horizonSecs namespaces).flatMap
      discoverySkips).map SkippedSchedule.ref) := by
  obtain ⟨r, hr, hschedules, hskipped⟩ := h.mem_outcomes hns o horizonSecs
  have href := describeOne_ref world.discovery ⟨ref.namespace, query, horizonSecs⟩ ref.scheduleId
  rcases h.probed horizonSecs with ⟨hlt, s, hs⟩ | ⟨hle, s, hs⟩
  · rw [hs] at href
    constructor
    · rw [iff_true_right hlt]
      apply List.mem_map.2
      refine ⟨s, (sortSchedules_perm _).mem_iff.2 ?_, href⟩
      exact List.mem_flatMap.2 ⟨_, hr, hschedules s hs⟩
    · intro hle
      exact absurd hlt (not_lt.2 hle)
  · rw [hs] at href
    constructor
    · rw [iff_false_right (not_lt.2 hle)]
      intro hmem
      obtain ⟨s', hs'⟩ := World.describeOne_of_mem_schedules hmem
      rw [hs] at hs'
      cases hs'
    · intro _
      exact List.mem_map.2 ⟨s, List.mem_flatMap.2 ⟨_, hr, hskipped s hs⟩, href⟩

end Listed

/-- A run reports what discovery has skipped, and starts updates only for what it let through. -/
theorem run_keeps_skips (hnow : act.workflowTime = some now)
    (htz : tzdb input.timezone = some tz) (hlist : act.listManagedNamespaces = .ok namespaces)
    (houtcomes : discoverOutcomes act input.query ((today tz now + 2) * 86400) namespaces =
      outcomes) (h : run lib tzdb act input = .ok result) :
    outcomes.flatMap discoverySkips ⊆ result.skipped ∧
    ∀ a ∈ dispatched lib tzdb act input,
      a.scheduleRef ∈ (sortSchedules (outcomes.flatMap discovered)).map ScheduleInfo.ref := by
  obtain ⟨stage, hstage, h⟩ := except_bind_eq_ok_iff.1 h
  have hplan := hstage
  rw [planStage_eq, hnow, htz, hlist] at hplan
  subst houtcomes
  rcases planDiscovered_cases hplan with ⟨-, rfl⟩ | rfl | ⟨plan, rfl, hperm⟩
  · cases h
    simp only [dispatched, hstage]
    exact ⟨List.Subset.refl _, List.forall_mem_nil _⟩
  · cases h
    simp only [dispatched, hstage]
    exact ⟨List.subset_append_right _ _, List.forall_mem_nil _⟩
  · obtain ⟨recorded, -, h⟩ := except_bind_eq_ok_iff.1 h
    cases h
    simp only [dispatched, hstage]
    constructor
    · intro s hs
      exact List.mem_append_left _ (List.mem_append_left _ hs)
    · intro a ha
      exact hperm.subset (List.mem_append_left _ (List.mem_map_of_mem ha))

/-- A schedule that has never fired is let through exactly when its first action lies before
midnight UTC of the day after tomorrow, which is before the end of the pool unless it lies between
the two. -/
theorem first_run_iff (world : World Calendar) (o : Orders) (tzdb : String → Option Tz)
    (input : SchedulerInput) (hnow : world.workflowTime = some now)
    (htz : tzdb input.timezone = some tz)
    (hlist : world.listManagedNamespaces = .ok namespaces)
    (hns : ref.namespace ∈ namespaces) (h : world.NeverFired input.query ref firstAction)
    (htoday : world.fetchPricedWindows ⟨today tz now, input.timezone⟩ =
      .ok (todays.map (rateWindow tz)))
    (htomorrow : world.tryFetchPricedWindows ⟨today tz now + 1, input.timezone⟩ =
      .ok ⟨tomorrows.map (List.map (rateWindow tz)), message⟩)
    (hpool : world.pool tz now input.timezone ≠ .ok []) :
    ∃ e, IsPoolEnd world.slotDurationMins (poolRates tz now todays tomorrows) e ∧
      let horizon := (today tz now + 2) * 86400
      let schedules := world.schedules o input.query horizon namespaces
      (ref ∈ schedules.map ScheduleInfo.ref ↔ firstAction < horizon) ∧
      ((ref ∈ schedules.map ScheduleInfo.ref ↔ firstAction < e) ↔
        firstAction < min e horizon ∨ max e horizon ≤ firstAction) ∧
      (ref ∉ schedules.map ScheduleInfo.ref → ∀ lib result,
        run lib tzdb (world.activities o) input = .ok result →
          ref ∈ result.skipped.map SkippedSchedule.ref ∧
          ∀ a ∈ dispatched lib tzdb (world.activities o) input, a.scheduleRef ≠ ref) := by
  have hne : poolRates tz now todays tomorrows ≠ [] := by
    intro hnil
    rw [World.pool_eq htoday htomorrow, hnil] at hpool
    exact hpool rfl
  obtain ⟨e, he⟩ := exists_isPoolEnd world.slotDurationMins hne
  refine ⟨e, he, ?_⟩
  intro horizon schedules
  obtain ⟨hthrough, hskip⟩ := h.let_through hns o horizon
  refine ⟨hthrough, ?_, ?_⟩
  · rw [hthrough, lt_min_iff, max_le_iff]
    have hlt : ∀ e horizon : Int, (firstAction < horizon ↔ firstAction < e) ↔
        firstAction < e ∧ firstAction < horizon ∨ e ≤ firstAction ∧ horizon ≤ firstAction := by
      omega
    exact hlt e horizon
  · intro hnot lib result hrun
    have hkeeps := run_keeps_skips hnow htz (World.listed hlist o) rfl hrun
    constructor
    · exact List.map_subset _ hkeeps.1 (hskip (not_lt.1 fun hlt => hnot (hthrough.2 hlt)))
    · intro a ha href
      exact hnot (href ▸ hkeeps.2 a ha)

section Sample

/-- The half-hours of a date in London's summer. -/
def summerDay (date : Int) : List OctopusRate :=
  (List.range 48).map fun k => ⟨.finite 5, date * 86400 - 3600 + k * 1800⟩

/-- At 20:00 on 1 July 2024 in London, with tomorrow's prices out: a daily schedule that is to
fire first at the given instant. -/
def firstRunAt (firstAction : Int) : World String where
  workflowTime := some (1719860400 * 10 ^ 9)
  listManagedNamespaces := .ok ["default"]
  discovery := {
    clientFor _ := .ok ()
    listSchedules _ _ := [.ok "backup"]
    describe _ := .ok ⟨[], [firstAction * 10 ^ 9],
      some ⟨[⟨some (ofSecs 86400), none⟩], [], [], none, none, none, ""⟩⟩
    systemTime _ := 1719860400 * 10 ^ 9 }
  visibility := oneSlowRun
  slotDurationMins := 30
  fetchPricedWindows _ := .ok ((summerDay 19905).map (rateWindow london))
  tryFetchPricedWindows _ := .ok ⟨some ((summerDay 19906).map (rateWindow london)), ""⟩
  updateScheduleWindows _ := .ok .updated

/-- The pool ends at midnight in London, an hour before midnight UTC. -/
theorem summer_pool_end :
    IsPoolEnd 30 (poolRates london (1719860400 * 10 ^ 9) (summerDay 19905)
      (some (summerDay 19906))) 1719961200 := by
  have hle : ∀ r ∈ poolRates london (1719860400 * 10 ^ 9) (summerDay 19905)
      (some (summerDay 19906)), r.validFrom + 30 * 60 ≤ 1719961200 := by decide +kernel
  constructor
  · exact ⟨⟨.finite 5, 1719959400⟩, by decide +kernel, rfl⟩
  · intro e he
    obtain ⟨r, hr, rfl⟩ := he
    exact hle r hr

theorem first_run_iff_summer :
    ⟨"default", "backup"⟩ ∈ ((firstRunAt 1719950000).schedules .asCalled "q" 1719964800
      ["default"]).map ScheduleInfo.ref ↔ (1719950000 : Int) < 1719961200 := by
  have hfired : (firstRunAt 1719950000).NeverFired "q" ⟨"default", "backup"⟩ 1719950000 :=
    ⟨rfl, ⟨_, rfl, by decide⟩, ⟨_, 86400, rfl, rfl, by decide, rfl, rfl⟩⟩
  have hlist : (firstRunAt 1719950000).listManagedNamespaces = .ok ["default"] := rfl
  have htoday : (firstRunAt 1719950000).fetchPricedWindows
      ⟨today london (1719860400 * 10 ^ 9), "Europe/London"⟩ =
        .ok ((summerDay 19905).map (rateWindow london)) := rfl
  have htomorrow : (firstRunAt 1719950000).tryFetchPricedWindows
      ⟨today london (1719860400 * 10 ^ 9) + 1, "Europe/London"⟩ =
        .ok ⟨(some (summerDay 19906)).map (List.map (rateWindow london)), ""⟩ := rfl
  obtain ⟨e, he, -, hiff, -⟩ := first_run_iff (firstRunAt 1719950000) .asCalled (fun _ => some london)
    ⟨"q", "Europe/London"⟩ rfl rfl hlist (by decide) hfired htoday htomorrow (by decide +kernel)
  cases he.unique summer_pool_end
  exact hiff.2 (.inl (by decide +kernel))

/-- A first run half an hour after the last priced slot is let through. -/
theorem first_run_past_pool :
    IsPoolEnd 30 (poolRates london (1719860400 * 10 ^ 9) (summerDay 19905)
      (some (summerDay 19906))) 1719961200 ∧
    (firstRunAt 1719963000).pool london (1719860400 * 10 ^ 9) "Europe/London" ≠ .ok [] ∧
    ¬ (⟨"default", "backup"⟩ ∈ ((firstRunAt 1719963000).schedules .asCalled "q"
      ((today london (1719860400 * 10 ^ 9) + 2) * 86400) ["default"]).map ScheduleInfo.ref ↔
        (1719963000 : Int) < 1719961200) :=
  ⟨summer_pool_end, by decide +kernel, by decide +kernel⟩

end Sample

end Gridshift
