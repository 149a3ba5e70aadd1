import Gridshift.FirstRun

namespace Gridshift
open Sorting
set_option autoImplicit true

/-- A plan is made of what was measured and fetched for the schedules discovered. -/
theorem planDiscovered_inr
    (h : planDiscovered lib tzdb act input now tz schedules skipped slotMins =
      .ok (.inr (skipped', plan))) :
    ∃ pairs todays tomorrow,
      act.measureScheduleDurations ⟨schedules.map ScheduleInfo.ref⟩ = .ok pairs ∧
      act.fetchPricedWindows ⟨today tz now, input.timezone⟩ = .ok todays ∧
      act.tryFetchPricedWindows ⟨today tz now + 1, input.timezone⟩ = .ok tomorrow ∧
      planWindowAssignments lib tzdb ⟨schedules, pairs, pricePool tz now todays tomorrow.windows,
        input.timezone, if 0 ≤ now then now / 10 ^ 9 else 0, slotMins⟩ = .ok plan := by
  simp only [planDiscovered] at h
  split at h
  · cases h
  · obtain ⟨pairs, hpairs, h⟩ := except_bind_eq_ok_iff.1 h
    obtain ⟨todays, htoday, h⟩ := except_bind_eq_ok_iff.1 h
    obtain ⟨tomorrow, htomorrow, h⟩ := except_bind_eq_ok_iff.1 h
    split at h
    · cases h
    · obtain ⟨plan', hplan, h⟩ := except_bind_eq_ok_iff.1 h
      cases h
      exact ⟨pairs, todays, tomorrow, hpairs, htoday, htomorrow, hplan⟩

/-- An assignment is for a schedule that was discovered, at a slot of the pool from which on it
may start. -/
theorem mem_planWindowAssignments (htz : tzdb input.timezone = some tz)
    (h : planWindowAssignments lib tzdb input = .ok plan) (ha : a ∈ plan.assignments) :
    ∃ s ∈ input.schedules, ∃ t : Fin input.pricedWindows.length,
      earliestEligibleIndex input.pricedWindows s.lastFireSecs s.intervalSecs tz ≤ t ∧
      t + reservedSlots (durationMap input.scheduleDurations) input.slotDurationMins s ≤
        input.pricedWindows.length ∧
      a = ⟨s.ref, (input.pricedWindows.get t).toChosen, s.intervalSecs⟩ := by
  obtain ⟨tz', htz', hplan⟩ := except_bind_eq_ok_iff.1 h
  cases htz.symm.trans (elim_eq_ok_iff.1 htz')
  exact mem_planAssignments (elim_eq_ok_iff.1 hplan) ha

/-- The run's activities, with the updates answered as given. -/
def World.activitiesWith (world : World Calendar) (o : Orders)
    (updates : Nat → UpdateWindowsInput → Except String UpdateOutcome) : Activities :=
  { world.activities o with updateScheduleWindows := updates }

/-- What a dispatched assignment rests on: the run's clock and zone, its slots and durations, and
the schedule that was discovered. -/
structure World.Plans (world : World Calendar) (o : Orders) (tzdb : String → Option Tz)
    (input : SchedulerInput) (a : ScheduleAssignment) (now : Int) (tz : Tz)
    (namespaces : List String) (priced : List PricedWindow) (s : ScheduleInfo) : Prop where
  clock : world.workflowTime = some now
  zone : tzdb input.timezone = some tz
  listed : world.listManagedNamespaces = .ok namespaces
  pool : world.pool tz now input.timezone = .ok priced
  discovered : s ∈ world.schedules o input.query ((today tz now + 2) * 86400) namespaces
  starts : ∃ durations, ∃ t : Fin priced.length,
    world.durations o input.query ((today tz now + 2) * 86400) namespaces = .ok durations ∧
    earliestEligibleIndex priced s.lastFireSecs s.intervalSecs tz ≤ t ∧
    t + reservedSlots durations world.slotDurationMins s ≤ priced.length ∧
    a = ⟨s.ref, (priced.get t).toChosen, s.intervalSecs⟩

theorem World.exists_plans {world : World Calendar}
    (h : a ∈ dispatched lib tzdb (world.activitiesWith o updates) input) :
    ∃ now tz namespaces priced s, world.Plans o tzdb input a now tz namespaces priced s := by
  have hsame : planStage lib tzdb (world.activitiesWith o updates) input =
      planStage lib tzdb (world.activities o) input := rfl
  rw [dispatched, hsame] at h
  cases hstage : planStage lib tzdb (world.activities o) input with
  | error e =>
    rw [hstage] at h
    cases h
  | ok stage =>
    rw [hstage] at h
    cases stage with
    | inl result => cases h
    | inr p =>
      rw [planStage_eq] at hstage
      obtain ⟨now, hnow, hstage⟩ := except_bind_eq_ok_iff.1 hstage
      obtain ⟨tz, htz, hstage⟩ := except_bind_eq_ok_iff.1 hstage
      obtain ⟨listed, hlisted, hstage⟩ := except_bind_eq_ok_iff.1 hstage
      cases hlist : world.listManagedNamespaces with
      | error e =>
        rw [World.activities, hlist] at hlisted
        cases hlisted
      | ok namespaces =>
        rw [World.listed hlist o] at hlisted
        cases hlisted
        obtain ⟨pairs, todays, tomorrow, hpairs, htoday, htomorrow, hplan⟩ :=
          planDiscovered_inr hstage
        obtain ⟨s, hs, t, hfrom, hroom, rfl⟩ :=
          mem_planWindowAssignments (elim_eq_ok_iff.1 htz) hplan h
        have hs' : s ∈ world.schedules o input.query ((today tz now + 2) * 86400) namespaces := hs
        refine ⟨now, tz, namespaces, _, s, elim_eq_ok_iff.1 hnow, elim_eq_ok_iff.1 htz, hlist,
          ?_, hs', durationMap pairs, t, ?_, hfrom, ?_, rfl⟩
        · change world.fetchPricedWindows _ = _ at htoday
          change world.tryFetchPricedWindows _ = _ at htomorrow
          rw [World.pool, htoday, htomorrow]
          rfl
        · rw [World.durations, World.schedules]
          exact congrArg (Except.map durationMap) hpairs
        · rw [← world.slotDuration_eq o _ (List.ne_nil_of_mem hs')]
          exact hroom

/-- A schedule that discovery lets through was listed for the query in a listed namespace, and
described with a first interval of at least a second. -/
structure World.LetsThrough (world : World Calendar) (query : String) (horizonSecs : Int)
    (namespaces : List String) (s : ScheduleInfo) (desc : ScheduleDescription Calendar) :
    Prop where
  «namespace» : s.namespace ∈ namespaces
  listed : ∃ ids, (world.discovery.listSchedules s.namespace query).mapM id = .ok ids ∧
    s.scheduleId ∈ ids
  described : world.discovery.describe s.ref = .ok desc
  interval : firstIntervalSecs desc.spec = some s.intervalSecs
  positive : 0 < s.intervalSecs
  lastFire : s.lastFireSecs = lastFireSecs desc.recentActions
  firstRun : s.lastFireSecs = none →
    ∀ nf ∈ nextFireSecs desc.futureActionTimes, nf < horizonSecs

theorem describeOne_eq_inl {api : DiscoveryApi Calendar}
    (h : describeOne api input scheduleId = .inl s) :
    ∃ desc, api.describe ⟨input.namespace, scheduleId⟩ = .ok desc ∧
      s.namespace = input.namespace ∧ s.scheduleId = scheduleId ∧
      firstIntervalSecs desc.spec = some s.intervalSecs ∧ 0 < s.intervalSecs ∧
      s.lastFireSecs = lastFireSecs desc.recentActions ∧
      (lastFireSecs desc.recentActions = none →
        ∀ nf ∈ nextFireSecs desc.futureActionTimes, nf < input.horizonSecs) := by
  simp only [describeOne] at h
  cases hdesc : api.describe ⟨input.namespace, scheduleId⟩ with
  | error e =>
    rw [hdesc] at h
    cases h
  | ok desc =>
    rw [hdesc] at h
    simp only [Except.mapError] at h
    split at h
    · rename_i secs lastFire hprobe
      cases h
      obtain ⟨hsecs, hpos, rfl, hfirst⟩ := (probeSchedule_ok_iff _ _ desc).1 hprobe
      exact ⟨desc, rfl, rfl, rfl, hsecs, hpos, rfl, hfirst⟩
    · cases h

theorem World.letsThrough_of_mem {world : World Calendar}
    (h : s ∈ world.schedules o query horizonSecs namespaces) :
    ∃ desc, world.LetsThrough query horizonSecs namespaces s desc := by
  have hs := (sortSchedules_perm _).mem_iff.1 h
  rw [World.outcomes_eq, List.flatMap_map] at hs
  obtain ⟨ns, hns, hs⟩ := List.mem_flatMap.1 hs
  rcases discovered_cases _ _ _ _ _ with hnil | ⟨ids, hids, hperm⟩
  · rw [hnil] at hs
    cases hs
  · obtain ⟨scheduleId, hid, hone⟩ := List.mem_map.1 (mem_lefts (hperm.mem_iff.1 hs))
    obtain ⟨desc, hdesc, hname, rfl, hsecs, hpos, hlast, hfirst⟩ := describeOne_eq_inl hone
    simp only at hname hdesc hfirst
    subst hname
    exact ⟨desc, o.namespaces.mem_run.1 hns, ⟨ids, hids, (o.describes _).mem_run.1 hid⟩, hdesc,
      hsecs, hpos, hlast, fun hnone => hfirst (hlast ▸ hnone)⟩

end Gridshift
