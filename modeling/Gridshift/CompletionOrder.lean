import Gridshift.AnsweredPlan
import Gridshift.Bookkeeping
import Gridshift.DiscoverSchedules
import Gridshift.MeasureDurations

namespace Gridshift
open BinaryProgram Completion Sorting
set_option autoImplicit true

/-- What the calls of a run are answered, call by call. -/
structure World (Calendar : Type) where
  workflowTime : Option SystemTime
  listManagedNamespaces : Except String (List String)
  discovery : DiscoveryApi Calendar
  visibility : Visibility
  slotDurationMins : Nat
  fetchPricedWindows : FetchWindowsInput → Except String (List PricedWindow)
  tryFetchPricedWindows : FetchWindowsInput → Except String TryFetchWindowsResult
  updateScheduleWindows : UpdateWindowsInput → Except String UpdateOutcome

/-- The order in which the namespaces are listed, and those in which concurrent calls complete. -/
structure Orders where
  namespaces : Order String
  describes : String → Order String
  durations : Order ScheduleRef

def World.activities (world : World Calendar) (o : Orders) : Activities where
  workflowTime := world.workflowTime
  listManagedNamespaces := world.listManagedNamespaces.map o.namespaces.run
  discoverSchedules _ input := discoverSchedules world.discovery world.slotDurationMins
    (o.describes input.namespace) input
  measureScheduleDurations := measureScheduleDurations world.visibility world.slotDurationMins
    o.durations
  fetchPricedWindows := world.fetchPricedWindows
  tryFetchPricedWindows := world.tryFetchPricedWindows
  updateScheduleWindows _ := world.updateScheduleWindows

section Reached
variable (world : World Calendar) (o : Orders) (query : String) (horizonSecs : Int)
  (namespaces : List String)

def World.outcomes : List (String × Except String DiscoverSchedulesResult) :=
  discoverOutcomes (world.activities o) query horizonSecs (o.namespaces.run namespaces)

/-- The schedules that reach the planner. -/
def World.schedules : List ScheduleInfo :=
  sortSchedules ((world.outcomes o query horizonSecs namespaces).flatMap discovered)

/-- The durations that the planner looks up. -/
def World.durations : Except String (ScheduleRef → Option Nat) :=
  ((world.activities o).measureScheduleDurations
    ⟨(world.schedules o query horizonSecs namespaces).map ScheduleInfo.ref⟩).map durationMap

end Reached

def World.DistinctIds (world : World Calendar) (query ns : String) : Prop :=
  ∀ ids, (world.discovery.listSchedules ns query).mapM id = .ok ids → ids.Nodup

/-- Two runs that plan the same, up to the order of what they skip. -/
def SamePlan : Except String (SchedulerResult ⊕ List SkippedSchedule × PlanWindowsResult) →
    Except String (SchedulerResult ⊕ List SkippedSchedule × PlanWindowsResult) → Prop
  | .error e, .error e' => e = e'
  | .ok (.inl r), .ok (.inl r') => r.schedulesUpdated = r'.schedulesUpdated ∧
      r.updates = r'.updates ∧ r.skipped.Perm r'.skipped
  | .ok (.inr (skipped, plan)), .ok (.inr (skipped', plan')) =>
      skipped.Perm skipped' ∧ plan = plan'
  | _, _ => False

/-- Two calls that differ only in what the rest does not look at. -/
theorem SamePlan.bind_of_map {x y : Except String α} (k : α → β) (hk : x.map k = y.map k)
    (h : ∀ a b, k a = k b → SamePlan (f a) (g b)) : SamePlan (x >>= f) (y >>= g) := by
  cases x with
  | error e =>
    cases y with
    | error e' => exact Except.error.inj hk
    | ok b => cases hk
  | ok a =>
    cases y with
    | error e' => cases hk
    | ok b => exact h a b (Except.ok.inj hk)

theorem SamePlan.bind {x : Except String α} (h : ∀ a, SamePlan (f a) (g a)) :
    SamePlan (x >>= f) (x >>= g) := by
  cases x with
  | error e => rfl
  | ok a => exact h a

theorem planDiscovered_congr {act act' : Activities}
    (hfetch : act.fetchPricedWindows = act'.fetchPricedWindows)
    (htry : act.tryFetchPricedWindows = act'.tryFetchPricedWindows)
    (hdurations : (act.measureScheduleDurations ⟨schedules.map ScheduleInfo.ref⟩).map durationMap =
      (act'.measureScheduleDurations ⟨schedules.map ScheduleInfo.ref⟩).map durationMap)
    (hskipped : skipped.Perm skipped') (hslot : schedules ≠ [] → slotMins = slotMins') :
    SamePlan (planDiscovered lib tzdb act input now tz schedules skipped slotMins)
      (planDiscovered lib tzdb act' input now tz schedules skipped' slotMins') := by
  by_cases hempty : schedules = []
  · subst hempty
    exact ⟨rfl, rfl, hskipped⟩
  · obtain rfl := hslot hempty
    rw [planDiscovered, planDiscovered, ← hfetch, ← htry]
    simp only [List.isEmpty_eq_false_iff.2 hempty, Bool.false_eq_true, if_false]
    apply SamePlan.bind_of_map durationMap hdurations
    intro pairs pairs' hmap
    apply SamePlan.bind
    intro todayWindows
    apply SamePlan.bind
    intro tomorrowResult
    simp only [planWindowAssignments, hmap]
    split
    · exact ⟨rfl, rfl, hskipped.append_left _⟩
    · apply SamePlan.bind
      intro plan
      exact ⟨hskipped, rfl⟩

theorem sortSchedules_eq_of_perm (h : schedules.Perm schedules')
    (hrefs : (schedules.map ScheduleInfo.ref).Nodup) :
    sortSchedules schedules = sortSchedules schedules' := by
  apply insertionSort_eq_of_perm _ (fun s : ScheduleInfo => toLex (s.namespace, s.scheduleId))
    (fun a b => Prod.Lex.toLex_le_toLex.symm) h
  have hkey : (fun s : ScheduleInfo => toLex (s.namespace, s.scheduleId)) =
      (fun r : ScheduleRef => toLex (r.namespace, r.scheduleId)) ∘ ScheduleInfo.ref := rfl
  rw [hkey, ← List.map_map]
  apply hrefs.map
  intro r r' h
  obtain ⟨hns, hid⟩ := Prod.mk.inj (toLex.injective h)
  exact congr (congrArg ScheduleRef.mk hns) hid

/-- The durations looked up, said without an order. -/
theorem durationMap_measured (vis : Visibility) (slotMins : Nat) (o : Order ScheduleRef)
    (input : MeasureDurationsInput) :
    (measureScheduleDurations vis slotMins o input).map durationMap =
      if ∀ ref ∈ input.schedules, (measureOne vis slotMins ref).isSome then
        .ok fun ref => if ref ∈ input.schedules then measureOne vis slotMins ref else none
      else .error "attempt to divide by zero" := by
  by_cases h : ∀ ref ∈ input.schedules, (measureOne vis slotMins ref).isSome
  · rw [if_pos h, measureScheduleDurations_of_isSome o h]
    apply congrArg Except.ok
    funext ref
    rw [durationMap_map]
    simp only [o.mem_run]
    split
    · rename_i href
      obtain ⟨mins, hmins⟩ := Option.isSome_iff_exists.1 (h ref href)
      rw [hmins, Option.getD_some]
    · rfl
  · rw [if_neg h, measureScheduleDurations]
    cases hpairs : (o.run input.schedules).mapM fun ref =>
        (measureOne vis slotMins ref).map fun mins => (ref, mins) with
    | none => rfl
    | some pairs =>
      exfalso
      apply h
      intro ref href
      have hmem := List.mem_map_of_mem (f := fun ref =>
        (measureOne vis slotMins ref).map fun mins => (ref, mins)) (o.mem_run.2 href)
      rw [mapM_eq_some_iff.1 hpairs] at hmem
      obtain ⟨p, -, hp⟩ := List.mem_map.1 hmem
      rw [← Option.isSome_map (f := fun mins => (ref, mins)), ← hp, Option.isSome_some]

theorem World.listed {world : World Calendar}
    (hlist : world.listManagedNamespaces = .ok namespaces) (o : Orders) :
    (world.activities o).listManagedNamespaces = .ok (o.namespaces.run namespaces) := by
  rw [World.activities, hlist]
  rfl

theorem World.outcomes_eq (world : World Calendar) (o : Orders) (query : String)
    (horizonSecs : Int) (namespaces : List String) :
    world.outcomes o query horizonSecs namespaces =
      (o.namespaces.run namespaces).map fun ns => (ns, discoverSchedules world.discovery
        world.slotDurationMins (o.describes ns) ⟨ns, query, horizonSecs⟩) := by
  rw [World.outcomes, discoverOutcomes]
  conv_rhs => rw [← List.zipIdx_map_fst 0 (o.namespaces.run namespaces), List.map_map]
  rfl

section TwoOrders
variable (world : World Calendar) (o o' : Orders) {query : String} (horizonSecs : Int)
  {namespaces : List String} (hns : namespaces.Nodup)
  (hids : ∀ ns ∈ namespaces, world.DistinctIds query ns)

theorem World.outcomes_perm {f : String × Except String DiscoverSchedulesResult → List α}
    (hf : ∀ ns ∈ namespaces, (f (ns, discoverSchedules world.discovery world.slotDurationMins
      (o.describes ns) ⟨ns, query, horizonSecs⟩)).Perm (f (ns, discoverSchedules world.discovery
        world.slotDurationMins (o'.describes ns) ⟨ns, query, horizonSecs⟩))) :
    ((world.outcomes o query horizonSecs namespaces).flatMap f).Perm
      ((world.outcomes o' query horizonSecs namespaces).flatMap f) := by
  rw [World.outcomes_eq, World.outcomes_eq, List.flatMap_map, List.flatMap_map]
  apply List.Perm.flatMap ((o.namespaces.perm _).trans (o'.namespaces.perm _).symm)
  intro ns hmem
  exact hf ns (o.namespaces.mem_run.1 hmem)

include hids

theorem World.skips_perm :
    ((world.outcomes o query horizonSecs namespaces).flatMap discoverySkips).Perm
      ((world.outcomes o' query horizonSecs namespaces).flatMap discoverySkips) := by
  apply World.outcomes_perm
  intro ns hmem
  exact (discoverSchedules_congr _ _ _ _ ⟨ns, query, horizonSecs⟩ (hids ns hmem) ns).2

include hns

theorem World.discovered_refs_nodup :
    (((world.outcomes o query horizonSecs namespaces).flatMap discovered).map
      ScheduleInfo.ref).Nodup := by
  rw [World.outcomes_eq, List.flatMap_map, List.map_flatMap, List.nodup_flatMap]
  constructor
  · intro ns hmem
    exact Gridshift.discovered_refs_nodup _ _ _ ⟨ns, query, horizonSecs⟩
      (hids ns (o.namespaces.mem_run.1 hmem)) ns
  · apply ((o.namespaces.perm namespaces).nodup_iff.2 hns).imp
    intro ns ns' hne r hr hr'
    obtain ⟨s, hs, rfl⟩ := List.mem_map.1 hr
    obtain ⟨s', hs', href⟩ := List.mem_map.1 hr'
    apply hne
    exact (discovered_namespace hs).symm.trans
      ((congrArg ScheduleRef.namespace href).symm.trans (discovered_namespace hs'))

theorem World.schedules_eq :
    world.schedules o query horizonSecs namespaces =
      world.schedules o' query horizonSecs namespaces := by
  apply sortSchedules_eq_of_perm _ (world.discovered_refs_nodup o horizonSecs hns hids)
  apply World.outcomes_perm
  intro ns hmem
  exact .of_eq (discoverSchedules_congr _ _ _ _ ⟨ns, query, horizonSecs⟩ (hids ns hmem) ns).1

theorem World.durations_eq :
    world.durations o query horizonSecs namespaces =
      world.durations o' query horizonSecs namespaces := by
  have hschedules := world.schedules_eq o o' horizonSecs hns hids
  simp only [World.durations, World.activities, durationMap_measured] at hschedules ⊢
  rw [hschedules]

omit hns hids in
theorem World.slotDuration_eq
    (hne : world.schedules o query horizonSecs namespaces ≠ []) :
    slotDuration (world.outcomes o query horizonSecs namespaces) = world.slotDurationMins := by
  cases hhead : ((world.outcomes o query horizonSecs namespaces).filterMap
      fun o => o.2.toOption).head? with
  | none =>
    exfalso
    apply hne
    have hnil : (world.outcomes o query horizonSecs namespaces).flatMap discovered = [] := by
      rw [List.flatMap_eq_nil_iff]
      intro outcome hmem
      have herror := List.filterMap_eq_nil_iff.1 (List.head?_eq_none_iff.1 hhead) outcome hmem
      obtain ⟨ns, result⟩ := outcome
      cases result with
      | error e => rfl
      | ok r => cases herror
    rw [World.schedules, hnil]
    rfl
  | some r =>
    obtain ⟨outcome, hmem, hr⟩ := List.mem_filterMap.1 (List.mem_of_mem_head? hhead)
    rw [World.outcomes_eq] at hmem
    obtain ⟨ns, -, rfl⟩ := List.mem_map.1 hmem
    simp only [slotDuration, hhead, Option.map_some, Option.getD_some]
    cases hresult : discoverSchedules world.discovery world.slotDurationMins (o.describes ns)
        ⟨ns, query, horizonSecs⟩ with
    | error e =>
      rw [hresult] at hr
      cases hr
    | ok r' =>
      rw [hresult] at hr
      cases hr
      exact slotDurationMins_of_ok hresult

theorem World.planStage_congr (lib : Libraries) (tzdb : String → Option Tz)
    (input : SchedulerInput) (hlist : world.listManagedNamespaces = .ok namespaces)
    (hquery : input.query = query) :
    SamePlan (planStage lib tzdb (world.activities o) input)
      (planStage lib tzdb (world.activities o') input) := by
  subst hquery
  rw [planStage_eq, planStage_eq]
  apply SamePlan.bind
  intro now
  apply SamePlan.bind
  intro tz
  rw [World.listed hlist o, World.listed hlist o']
  have hschedules := world.schedules_eq o o' ((today tz now + 2) * 86400) hns hids
  have hdurations := world.durations_eq o o' ((today tz now + 2) * 86400) hns hids
  have hskips := world.skips_perm o o' ((today tz now + 2) * 86400) hids
  change SamePlan
    (planDiscovered lib tzdb (world.activities o) input now tz (world.schedules o _ _ _) _ _)
    (planDiscovered lib tzdb (world.activities o') input now tz (world.schedules o' _ _ _) _ _)
  simp only [World.durations, hschedules] at hdurations
  rw [hschedules]
  have hfetch : (world.activities o).fetchPricedWindows =
      (world.activities o').fetchPricedWindows := rfl
  have htry : (world.activities o).tryFetchPricedWindows =
      (world.activities o').tryFetchPricedWindows := rfl
  apply planDiscovered_congr hfetch htry hdurations hskips
  intro hne
  have hslot := world.slotDuration_eq o' _ hne
  rw [← hschedules] at hne
  exact (world.slotDuration_eq o _ hne).trans hslot.symm

end TwoOrders

/-- The program of a plan depends on the answers to a run's calls, not on the orders in which
they come in; of what is skipped, neither does more than the order. -/
theorem plan_input_order_free (world : World Calendar) (o o' : Orders) (input : SchedulerInput)
    (hlist : world.listManagedNamespaces = .ok namespaces) (hns : namespaces.Nodup)
    (hids : ∀ ns ∈ namespaces, world.DistinctIds input.query ns) :
    (∀ horizonSecs,
      world.schedules o input.query horizonSecs namespaces =
        world.schedules o' input.query horizonSecs namespaces ∧
      world.durations o input.query horizonSecs namespaces =
        world.durations o' input.query horizonSecs namespaces ∧
      ((world.outcomes o input.query horizonSecs namespaces).flatMap discoverySkips).Perm
        ((world.outcomes o' input.query horizonSecs namespaces).flatMap discoverySkips) ∧
      ∀ durations durations' priced tz,
        world.durations o input.query horizonSecs namespaces = .ok durations →
        world.durations o' input.query horizonSecs namespaces = .ok durations' →
        let jobs := placedJobs (world.schedules o input.query horizonSecs namespaces) durations
          priced tz world.slotDurationMins
        let jobs' := placedJobs (world.schedules o' input.query horizonSecs namespaces) durations'
          priced tz world.slotDurationMins
        jobs = jobs' ∧ planModel jobs priced.length (priced.map PricedWindow.pricePPerKwh) =
          planModel jobs' priced.length (priced.map PricedWindow.pricePPerKwh)) ∧
    ∀ lib tzdb, SamePlan (planStage lib tzdb (world.activities o) input)
      (planStage lib tzdb (world.activities o') input) := by
  constructor
  · intro horizonSecs
    have hschedules := world.schedules_eq o o' horizonSecs hns hids
    have hdurations := world.durations_eq o o' horizonSecs hns hids
    refine ⟨hschedules, hdurations, world.skips_perm o o' horizonSecs hids, ?_⟩
    intro durations durations' priced tz h h'
    have hsame : durations = durations' := Except.ok.inj (h.symm.trans (hdurations.trans h'))
    subst hsame
    simp only [hschedules, and_self]
  · intro lib tzdb
    exact world.planStage_congr o o' hns hids lib tzdb input hlist rfl

section Sample

/-- Two namespaces, in each a schedule that is let through and one that is not. -/
def twoNamespaces : World String where
  workflowTime := some 0
  listManagedNamespaces := .ok ["east", "west"]
  discovery := {
    clientFor _ := .ok ()
    listSchedules _ _ := [.ok "backup", .ok "manual", .ok "report"]
    describe r :=
      if r.scheduleId = "manual" then .error (.other "timeout")
      else .ok ⟨[], [], some ⟨[⟨some (ofSecs 86400), none⟩], [], [], none, none, none, ""⟩⟩
    systemTime _ := 0 }
  visibility := oneSlowRun
  slotDurationMins := 30
  fetchPricedWindows _ := .ok samplePool
  tryFetchPricedWindows _ := .ok ⟨none, "not published"⟩
  updateScheduleWindows _ := .ok .updated

/-- The calls complete in the order of their start. -/
def Orders.asCalled : Orders := ⟨.asCalled, fun _ => .asCalled, .asCalled⟩

/-- Everything comes in the other way round. -/
def Orders.reversed : Orders := ⟨.reversed, fun _ => .reversed, .reversed⟩

theorem plan_input_order_free_twoNamespaces :
    twoNamespaces.schedules .asCalled "q" 172800 ["east", "west"] =
        twoNamespaces.schedules .reversed "q" 172800 ["east", "west"] ∧
      ((twoNamespaces.outcomes .asCalled "q" 172800 ["east", "west"]).flatMap discoverySkips).Perm
        ((twoNamespaces.outcomes .reversed "q" 172800 ["east", "west"]).flatMap discoverySkips) ∧
      ((twoNamespaces.outcomes .asCalled "q" 172800 ["east", "west"]).flatMap discoverySkips).map
        SkippedSchedule.namespace = ["east", "west"] ∧
      ((twoNamespaces.outcomes .reversed "q" 172800 ["east", "west"]).flatMap discoverySkips).map
        SkippedSchedule.namespace = ["west", "east"] := by
  have hlist : twoNamespaces.listManagedNamespaces = .ok ["east", "west"] := rfl
  have hids : ∀ ns ∈ ["east", "west"], twoNamespaces.DistinctIds "q" ns := by
    intro ns _ ids hids
    cases hids
    decide
  have h := plan_input_order_free twoNamespaces .asCalled .reversed ⟨"q", "UTC"⟩ hlist
    (by decide) hids
  obtain ⟨hschedules, -, hskips, -⟩ := h.1 172800
  exact ⟨hschedules, hskips, by decide +kernel, by decide +kernel⟩

end Sample

end Gridshift
