import Gridshift.PlanOutcome
import Gridshift.ScheduleSpec

namespace Gridshift
open Sorting
set_option autoImplicit true

/-- The least lead, in minutes, of a slot that can still be scheduled. -/
def scheduleLeadMins : Nat := 2

/-- The answers of the activities that one run calls. Calls of one kind that are made together
are told apart by their position. -/
structure Activities where
  workflowTime : Option SystemTime
  listManagedNamespaces : Except String (List String)
  discoverSchedules : Nat → DiscoverSchedulesInput → Except String DiscoverSchedulesResult
  measureScheduleDurations : MeasureDurationsInput → Except String (List (ScheduleRef × Nat))
  fetchPricedWindows : FetchWindowsInput → Except String (List PricedWindow)
  tryFetchPricedWindows : FetchWindowsInput → Except String TryFetchWindowsResult
  updateScheduleWindows : Nat → UpdateWindowsInput → Except String UpdateOutcome

def nowLocal (tz : Tz) (now : Int) : Int := tz.toLocal (now / 10 ^ 9)

def today (tz : Tz) (now : Int) : Int := dateOf (nowLocal tz now)

def nowMins (tz : Tz) (now : Int) : Nat :=
  hourOf (nowLocal tz now) * 60 + minuteOf (nowLocal tz now)

def stillAhead (tz : Tz) (now : Int) (w : PricedWindow) : Bool :=
  today tz now < w.date || nowMins tz now + scheduleLeadMins ≤ w.hour * 60 + w.minute

def pricePool (tz : Tz) (now : Int) (todayWindows : List PricedWindow)
    (tomorrowWindows : Option (List PricedWindow)) : List PricedWindow :=
  todayWindows.filter (stillAhead tz now) ++ tomorrowWindows.getD []

def durationMap (pairs : List (ScheduleRef × Nat)) (ref : ScheduleRef) : Option Nat :=
  (pairs.reverse.find? fun p => p.1 = ref).map Prod.snd

def planWindowAssignments (lib : Libraries) (tzdb : String → Option Tz)
    (input : PlanWindowsInput) : Except String PlanWindowsResult := do
  let tz ← (tzdb input.timezone).elim (.error s!"invalid timezone: {debugStr input.timezone}") .ok
  (planAssignments lib input.schedules (durationMap input.scheduleDurations) input.pricedWindows
    tz input.nowSecs input.slotDurationMins).elim (.error "attempt to divide by zero") .ok

def discoverOutcomes (act : Activities) (query : String) (horizonSecs : Int)
    (namespaces : List String) : List (String × Except String DiscoverSchedulesResult) :=
  namespaces.zipIdx.map fun (ns, i) => (ns, act.discoverSchedules i ⟨ns, query, horizonSecs⟩)

def discovered : String × Except String DiscoverSchedulesResult → List ScheduleInfo
  | (_, .ok result) => result.schedules
  | (_, .error _) => []

def discoverySkips : String × Except String DiscoverSchedulesResult → List SkippedSchedule
  | (_, .ok result) => result.skipped
  | (ns, .error e) => [⟨ns, "", s!"discover_schedules failed: {e}"⟩]

def slotDuration (outcomes : List (String × Except String DiscoverSchedulesResult)) : Nat :=
  ((outcomes.filterMap fun o => o.2.toOption).head?.map
    DiscoverSchedulesResult.slotDurationMins).getD 30

def sortSchedules (schedules : List ScheduleInfo) : List ScheduleInfo :=
  schedules.insertionSort fun a b =>
    a.namespace < b.namespace ∨ a.namespace = b.namespace ∧ a.scheduleId ≤ b.scheduleId

def updateInput (timezone : String) (a : ScheduleAssignment) : UpdateWindowsInput :=
  ⟨a.scheduleRef.namespace, a.scheduleRef.scheduleId, a.window, timezone, a.intervalSecs⟩

def updateOutcomes (act : Activities) (timezone : String) (assignments : List ScheduleAssignment) :
    List (ScheduleAssignment × Except String UpdateOutcome) :=
  assignments.zipIdx.map fun (a, i) => (a, act.updateScheduleWindows i (updateInput timezone a))

/-- The firing times of the first day from a window on, in whole minutes. -/
def reportedWindows (intervalSecs : Nat) (w : ChosenWindow) : Except String (List ChosenWindow) :=
  if intervalSecs = 0 then .error "attempt to divide by zero"
  else
    let firesPerDay := max (secsPerDay / intervalSecs) 1
    let stepMins := intervalSecs / 60
    (andHmsOpt w.date w.hour w.minute).elim (.error "and_hms_opt on an invalid window") fun ndt =>
      .ok ((List.range firesPerDay).map fun i =>
        let dt := ndt + i * stepMins * 60
        ⟨dateOf dt, hourOf dt, minuteOf dt⟩)

def recordUpdate : ScheduleAssignment × Except String UpdateOutcome →
    Except String (ScheduleUpdateSummary ⊕ SkippedSchedule)
  | (a, .error e) => .ok (.inr ⟨a.scheduleRef.namespace, a.scheduleRef.scheduleId,
      s!"update_schedule_windows failed: {e}"⟩)
  | (a, .ok (.skipped reason)) =>
    .ok (.inr ⟨a.scheduleRef.namespace, a.scheduleRef.scheduleId, reason⟩)
  | (a, .ok .updated) => (reportedWindows a.intervalSecs a.window).map fun windows =>
      .inl ⟨a.scheduleRef.namespace, a.scheduleRef.scheduleId, windows⟩

def skipForNoSlots (s : ScheduleInfo) : SkippedSchedule :=
  ⟨s.namespace, s.scheduleId, "no price slots available"⟩

/-- The run up to its plan: a result if it ends early, else what it has skipped and the plan. -/
def planStage (lib : Libraries) (tzdb : String → Option Tz) (act : Activities)
    (input : SchedulerInput) :
    Except String (SchedulerResult ⊕ List SkippedSchedule × PlanWindowsResult) := do
  let now ← act.workflowTime.elim (.error "no workflow time") .ok
  let tz ← (tzdb input.timezone).elim (.error s!"invalid timezone {debugStr input.timezone}") .ok
  let horizonSecs := (today tz now + 2) * 86400
  let namespaces ← act.listManagedNamespaces
  let outcomes := discoverOutcomes act input.query horizonSecs namespaces
  let skipped := outcomes.flatMap discoverySkips
  let schedules := sortSchedules (outcomes.flatMap discovered)
  if schedules.isEmpty then
    return .inl ⟨0, [], skipped⟩
  let durationPairs ← act.measureScheduleDurations ⟨schedules.map ScheduleInfo.ref⟩
  let todayWindows ← act.fetchPricedWindows ⟨today tz now, input.timezone⟩
  let tomorrowResult ← act.tryFetchPricedWindows ⟨today tz now + 1, input.timezone⟩
  let pricedWindows := pricePool tz now todayWindows tomorrowResult.windows
  if pricedWindows.isEmpty then
    return .inl ⟨0, [], schedules.map skipForNoSlots ++ skipped⟩
  let plan ← planWindowAssignments lib tzdb {
    schedules := schedules
    scheduleDurations := durationPairs
    pricedWindows := pricedWindows
    timezone := input.timezone
    nowSecs := if 0 ≤ now then now / 10 ^ 9 else 0
    slotDurationMins := slotDuration outcomes }
  return .inr (skipped, plan)

def run (lib : Libraries) (tzdb : String → Option Tz) (act : Activities)
    (input : SchedulerInput) : Except String SchedulerResult := do
  match ← planStage lib tzdb act input with
  | .inl result => return result
  | .inr (skipped, plan) =>
    let recorded ← (updateOutcomes act input.timezone plan.assignments).mapM recordUpdate
    return ⟨(lefts recorded).length, lefts recorded, skipped ++ plan.skipped ++ rights recorded⟩

end Gridshift
