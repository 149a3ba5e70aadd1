import Gridshift.Dispatch
import Gridshift.ReportedWindows
import Gridshift.UpdateLinear

namespace Gridshift
open Sorting
set_option autoImplicit true

/-- How often the update of a schedule is attempted. -/
def maximumAttempts : Nat := 5

/-- The attempts at the updates that a run starts. -/
def runUpdates (sdk : Sdk Calendar) (tzdb : String → Option Tz) (timezone : String)
    (assignments : List ScheduleAssignment) :
    UpdateEnv (Fin assignments.length × Fin maximumAttempts) Calendar where
  sdk := sdk
  tzdb := tzdb
  input k := updateInput timezone (assignments.get k.1)

/-- An update that returns to the run has the outcome of one of its attempts. -/
def Delivered (timezone : String) (assignments : List ScheduleAssignment)
    (updates : Nat → UpdateWindowsInput → Except String UpdateOutcome)
    (s : UpdateState (Fin assignments.length × Fin maximumAttempts) Calendar) : Prop :=
  ∀ (i : Fin assignments.length) outcome, updates i (updateInput timezone (assignments.get i)) = .ok outcome →
    ∃ n, s.phase (i, n) = .ended (.ok outcome)

/-- The spec that an assignment's update makes of another. -/
def UpdatedTo (sdk : Sdk Calendar) (tzdb : String → Option Tz) (timezone : String)
    (a : ScheduleAssignment) (spec : Option (ScheduleSpec Calendar))
    (spec' : ScheduleSpec Calendar) : Prop :=
  ∃ ts, updateInstant tzdb (updateInput timezone a) = .ok ts ∧ rephase sdk ts spec = .ok spec'

theorem updateInstant_eq_ok_iff :
    updateInstant tzdb input = .ok ts ↔ ∃ tz ndt, tzdb input.timezone = some tz ∧
      andHmsOpt input.window.date input.window.hour input.window.minute = some ndt ∧
      utcTs tz ndt = ts := by
  simp only [updateInstant, except_bind_eq_ok_iff, elim_eq_ok_iff, pure, Except.pure,
    Except.ok.injEq, exists_and_left]

section Attempts
variable {sdk : Sdk Calendar} {tzdb : String → Option Tz} {timezone : String}
  {assignments : List ScheduleAssignment}
  {specs : ScheduleRef → Option (ScheduleSpec Calendar)}
  {es : List (UpdateEvent (Fin assignments.length × Fin maximumAttempts) Calendar)}
  {s : UpdateState (Fin assignments.length × Fin maximumAttempts) Calendar}
  (h : Machine.run (runUpdates sdk tzdb timezone assignments).step es (.start specs) = some s)
include h

/-- An update acknowledged to the run has a window on the clock. -/
theorem exists_andHmsOpt_of_delivered (hdelivered : Delivered timezone assignments updates s)
    {i : Fin assignments.length}
    (hupdated : updates i (updateInput timezone (assignments.get i)) = .ok .updated) :
    ∃ ndt, andHmsOpt (assignments.get i).window.date (assignments.get i).window.hour
      (assignments.get i).window.minute = some ndt := by
  obtain ⟨n, hn⟩ := hdelivered i .updated hupdated
  have hack := UpdateEnv.acknowledged_of_run h
  obtain ⟨ts, hts⟩ := hack.instant (i, n) (.inr (hack.updated (i, n) hn))
  obtain ⟨tz, ndt, -, hndt, -⟩ := updateInstant_eq_ok_iff.1 hts
  exact ⟨ndt, hndt⟩

section Spared
variable (howner : ∀ spec, UpdateEvent.owner ref spec ∉ es)
include howner

theorem updatedTo_of_landed (hne : es.flatMap
    ((runUpdates sdk tzdb timezone assignments).landedOn ref) ≠ []) :
    ∃ a ∈ assignments, a.scheduleRef = ref ∧
      ∃ spec, UpdatedTo sdk tzdb timezone a (specs ref) spec ∧ s.specs ref = some spec := by
  obtain ⟨k, hk⟩ := Option.isSome_iff_exists.1 (List.getLast?_isSome.2 hne)
  obtain ⟨href, spec, hspec, hstored⟩ := UpdateEnv.rewrite_of_getLast? h howner hk
  obtain ⟨ts, hts, hwrite⟩ := except_bind_eq_ok_iff.1 hspec
  exact ⟨assignments.get k.1, List.get_mem _ _, href, spec, ⟨ts, hts, hwrite⟩, hstored⟩

/-- A schedule holds its first spec, or what the update of one of its assignments makes of it. -/
theorem unchanged_or_updatedTo :
    s.specs ref = specs ref ∨ ∃ a ∈ assignments, a.scheduleRef = ref ∧
      ∃ spec, UpdatedTo sdk tzdb timezone a (specs ref) spec ∧ s.specs ref = some spec := by
  by_cases hnil : es.flatMap ((runUpdates sdk tzdb timezone assignments).landedOn ref) = []
  · exact .inl (UpdateEnv.specs_of_nil h howner hnil)
  · exact .inr (updatedTo_of_landed h howner hnil)

theorem updatedTo_of_delivered (hdelivered : Delivered timezone assignments updates s)
    {i : Fin assignments.length} (href : (assignments.get i).scheduleRef = ref)
    (hupdated : updates i (updateInput timezone (assignments.get i)) = .ok .updated) :
    ∃ a ∈ assignments, a.scheduleRef = ref ∧
      ∃ spec, UpdatedTo sdk tzdb timezone a (specs ref) spec ∧ s.specs ref = some spec := by
  obtain ⟨n, hn⟩ := hdelivered i .updated hupdated
  have hlanded := UpdateEnv.landed_of_updated h hn
  have htarget : (runUpdates sdk tzdb timezone assignments).target (i, n) = ref := href
  rw [htarget] at hlanded
  exact updatedTo_of_landed h howner (List.ne_nil_of_mem hlanded)

end Spared

end Attempts

theorem World.interval_pos {world : World Calendar}
    (h : a ∈ dispatched lib tzdb (world.activitiesWith o updates) input) : 0 < a.intervalSecs := by
  obtain ⟨now, tz, namespaces, priced, s, hplans⟩ := World.exists_plans h
  obtain ⟨desc, hthrough⟩ := World.letsThrough_of_mem hplans.discovered
  obtain ⟨durations, t, -, -, -, rfl⟩ := hplans.starts
  exact hthrough.positive

theorem recordUpdate_updated {a : ScheduleAssignment} (hpos : 0 < a.intervalSecs)
    (hndt : andHmsOpt a.window.date a.window.hour a.window.minute = some ndt) :
    recordUpdate (a, .ok .updated) = .ok (.inl ⟨a.scheduleRef.namespace, a.scheduleRef.scheduleId,
      windowsFrom a.intervalSecs ndt⟩) := by
  rw [recordUpdate, reportedWindows_eq hpos hndt]
  rfl

theorem World.dispatched_refs_nodup {world : World Calendar}
    (hlist : world.listManagedNamespaces = .ok namespaces) (hns : namespaces.Nodup)
    (hids : ∀ ns ∈ namespaces, world.DistinctIds input.query ns) :
    ((dispatched lib tzdb (world.activitiesWith o updates) input).map
      ScheduleAssignment.scheduleRef).Nodup := by
  have hsame : planStage lib tzdb (world.activitiesWith o updates) input =
      planStage lib tzdb (world.activities o) input := rfl
  rw [dispatched, hsame]
  cases hstage : planStage lib tzdb (world.activities o) input with
  | error e => exact .nil
  | ok stage =>
    cases stage with
    | inl result => exact .nil
    | inr p =>
      rw [planStage_eq] at hstage
      obtain ⟨now, -, hstage⟩ := except_bind_eq_ok_iff.1 hstage
      obtain ⟨tz, -, hstage⟩ := except_bind_eq_ok_iff.1 hstage
      rw [World.listed hlist o] at hstage
      rcases planDiscovered_cases hstage with ⟨-, hinl⟩ | hinl | ⟨plan, hinr, hperm⟩
      · cases hinl
      · cases hinl
      · cases hinr
        have hrefs := ((sortSchedules_perm _).map ScheduleInfo.ref).nodup_iff.2
          (world.discovered_refs_nodup o ((today tz now + 2) * 86400) hns hids)
        exact (hperm.nodup_iff.2 hrefs).of_append_left

theorem head?_windowsFrom {w : ChosenWindow}
    (hndt : andHmsOpt w.date w.hour w.minute = some ndt) :
    (windowsFrom intervalSecs ndt).head? = some w := by
  have hpos : 0 < firesPerDay intervalSecs := lt_max_of_lt_right one_pos
  rw [List.head?_eq_getElem?, windowsFrom_getElem? hpos]
  obtain ⟨⟨hh, hm⟩, rfl⟩ := andHmsOpt_eq_some_iff.1 hndt
  cases w with
  | mk date hour minute =>
    simp only at hh hm
    have hparts (d : Int) : (d * 86400 + hour * 3600 + minute * 60 +
          (0 : Nat) * (intervalSecs / 60 : Nat) * 60) / 86400 = d ∧
        ((d * 86400 + hour * 3600 + minute * 60 +
          (0 : Nat) * (intervalSecs / 60 : Nat) * 60) % 86400 / 3600).toNat = hour ∧
        ((d * 86400 + hour * 3600 + minute * 60 +
          (0 : Nat) * (intervalSecs / 60 : Nat) * 60) % 3600 / 60).toNat = minute := by
      omega
    simp only [windowAt, dateOf, hourOf, minuteOf, hparts]

section Run
variable {world : World Calendar} {o : Orders} {lib : Libraries} {tzdb : String → Option Tz}
  {sdk : Sdk Calendar} {input : SchedulerInput}
  {updates : Nat → UpdateWindowsInput → Except String UpdateOutcome}
  {specs : ScheduleRef → Option (ScheduleSpec Calendar)}
  {es : List (UpdateEvent (Fin (dispatched lib tzdb (world.activitiesWith o updates)
    input).length × Fin maximumAttempts) Calendar)}
  {s : UpdateState (Fin (dispatched lib tzdb (world.activitiesWith o updates) input).length ×
    Fin maximumAttempts) Calendar}
  (h : Machine.run (runUpdates sdk tzdb input.timezone (dispatched lib tzdb
    (world.activitiesWith o updates) input)).step es (.start specs) = some s)
  (hdelivered : Delivered input.timezone (dispatched lib tzdb (world.activitiesWith o updates)
    input) updates s)
include h hdelivered

/-- The run can record whatever its updates are answered. -/
theorem exists_recordUpdate
    (hmem : outcome ∈ updateOutcomes (world.activitiesWith o updates) input.timezone
      (dispatched lib tzdb (world.activitiesWith o updates) input)) :
    ∃ c, recordUpdate outcome = .ok c := by
  obtain ⟨i, rfl⟩ := exists_of_mem_updateOutcomes hmem
  have hpos := World.interval_pos (List.get_mem _ i)
  change ∃ c, recordUpdate (_, updates i (updateInput input.timezone (List.get _ i))) = .ok c
  cases hanswer : updates i (updateInput input.timezone (List.get _ i)) with
  | error e => exact ⟨_, rfl⟩
  | ok answer =>
    cases answer with
    | skipped reason => exact ⟨_, rfl⟩
    | updated =>
      obtain ⟨ndt, hndt⟩ := exists_andHmsOpt_of_delivered h hdelivered hanswer
      exact ⟨_, recordUpdate_updated hpos hndt⟩

/-- A run fails only before it starts any update. -/
theorem dispatched_eq_nil_of_error
    (herror : run lib tzdb (world.activitiesWith o updates) input = .error e) :
    dispatched lib tzdb (world.activitiesWith o updates) input = [] := by
  cases hstage : planStage lib tzdb (world.activitiesWith o updates) input with
  | error e' => rw [dispatched, hstage]
  | ok stage =>
    cases stage with
    | inl result => rw [dispatched, hstage]
    | inr p =>
      have hdispatched : dispatched lib tzdb (world.activitiesWith o updates) input =
          p.2.assignments := by rw [dispatched, hstage]
      obtain ⟨recorded, hrecorded⟩ := exists_mapM_eq_ok fun outcome hmem =>
        exists_recordUpdate h hdelivered hmem
      rw [hdispatched] at hrecorded
      rw [run, hstage] at herror
      change (updateOutcomes _ _ p.2.assignments).mapM recordUpdate >>= _ = _ at herror
      rw [hrecorded] at herror
      cases herror

/-- What the run reports of an update is the day's firings from its window on. -/
theorem exists_update_of_reported
    (hrun : run lib tzdb (world.activitiesWith o updates) input = .ok result)
    (hu : u ∈ result.updates) :
    ∃ i : Fin (dispatched lib tzdb (world.activitiesWith o updates) input).length, ∃ a ndt,
      (dispatched lib tzdb (world.activitiesWith o updates) input).get i = a ∧
      updates i (updateInput input.timezone a) = .ok .updated ∧
      andHmsOpt a.window.date a.window.hour a.window.minute = some ndt ∧
      u = ⟨a.scheduleRef.namespace, a.scheduleRef.scheduleId, windowsFrom a.intervalSecs ndt⟩ := by
  obtain ⟨stage, hstage, hrun⟩ := except_bind_eq_ok_iff.1 hrun
  cases stage with
  | inl early =>
    cases hrun
    obtain ⟨-, -, -, -, -, -, -, hearly⟩ := planStage_refs hstage
    rw [(hearly _ rfl).1] at hu
    cases hu
  | inr p =>
    have hdispatched : dispatched lib tzdb (world.activitiesWith o updates) input =
        p.2.assignments := by rw [dispatched, hstage]
    obtain ⟨recorded, hrecorded, hrun⟩ := except_bind_eq_ok_iff.1 hrun
    cases hrun
    rw [← hdispatched, mapM_eq_ok_iff] at hrecorded
    have hmem := List.mem_map_of_mem (f := Except.ok (ε := String)) (mem_lefts hu)
    rw [← hrecorded] at hmem
    obtain ⟨outcome, houtcome, hok⟩ := List.mem_map.1 hmem
    obtain ⟨i, rfl⟩ := exists_of_mem_updateOutcomes houtcome
    have hpos := World.interval_pos (List.get_mem _ i)
    change recordUpdate (_, updates i (updateInput input.timezone (List.get _ i))) = _ at hok
    cases hanswer : updates i (updateInput input.timezone (List.get _ i)) with
    | error e =>
      rw [hanswer] at hok
      cases hok
    | ok answer =>
      rw [hanswer] at hok
      cases answer with
      | skipped reason => cases hok
      | updated =>
        obtain ⟨ndt, hndt⟩ := exists_andHmsOpt_of_delivered h hdelivered hanswer
        rw [recordUpdate_updated hpos hndt] at hok
        cases hok
        exact ⟨i, _, ndt, rfl, hanswer, hndt, rfl⟩

/-- An update that is reported is that of one assignment, which its schedule has in the end. -/
theorem exists_stored_of_reported (hlist : world.listManagedNamespaces = .ok namespaces)
    (hns : namespaces.Nodup) (hids : ∀ ns ∈ namespaces, world.DistinctIds input.query ns)
    (hrun : run lib tzdb (world.activitiesWith o updates) input = .ok result)
    (hu : u ∈ result.updates) (howner : ∀ spec, UpdateEvent.owner u.ref spec ∉ es) :
    ∃ a ∈ dispatched lib tzdb (world.activitiesWith o updates) input, ∃ tz ndt spec,
      tzdb input.timezone = some tz ∧ u.windows.head? = some a.window ∧
      andHmsOpt a.window.date a.window.hour a.window.minute = some ndt ∧
      rephase sdk (utcTs tz ndt) (specs u.ref) = .ok spec ∧ s.specs u.ref = some spec ∧
      ∀ old every, specs u.ref = some old → every ∈ old.everySecs → 0 < every →
        spec.FiresAt (utcTs tz ndt) := by
  obtain ⟨i, a, ndt, rfl, hupdated, hndt, rfl⟩ := exists_update_of_reported h hdelivered hrun hu
  obtain ⟨a', ha', href, spec, ⟨ts, hts, hwrite⟩, hstored⟩ :=
    updatedTo_of_delivered h howner hdelivered rfl hupdated
  have hsame : a' = List.get _ i :=
    List.inj_on_of_nodup_map (World.dispatched_refs_nodup hlist hns hids) ha' (List.get_mem _ i)
      href
  subst hsame
  obtain ⟨tz, ndt', htz, hndt', rfl⟩ := updateInstant_eq_ok_iff.1 hts
  cases hndt.symm.trans hndt'
  refine ⟨_, ha', tz, ndt, spec, htz, head?_windowsFrom hndt, hndt, hwrite, hstored, ?_⟩
  intro old every hold hevery hpos
  rw [hold] at hwrite
  exact firesAt_of_mem hwrite hevery hpos (IntervalGrid.OnGrid.self _ _)

end Run

/-- What a run does to a schedule that its owners leave alone, however the attempts at its updates
interleave, fail or are lost: nothing when the run fails; and when the spec changes, it becomes
what one of the run's assignments makes of it, for a schedule that was listed for the query and
let through, at a slot of the pool from which on it may start. What is reported as updated has
been. -/
theorem run_on_cluster (world : World Calendar) (o : Orders) (lib : Libraries)
    (tzdb : String → Option Tz) (sdk : Sdk Calendar) (input : SchedulerInput)
    (updates : Nat → UpdateWindowsInput → Except String UpdateOutcome)
    (specs : ScheduleRef → Option (ScheduleSpec Calendar))
    (es : List (UpdateEvent (Fin (dispatched lib tzdb (world.activitiesWith o updates)
      input).length × Fin maximumAttempts) Calendar))
    (s : UpdateState (Fin (dispatched lib tzdb (world.activitiesWith o updates) input).length ×
      Fin maximumAttempts) Calendar)
    (ref : ScheduleRef)
    (h : Machine.run (runUpdates sdk tzdb input.timezone (dispatched lib tzdb
      (world.activitiesWith o updates) input)).step es (.start specs) = some s)
    (hdelivered : Delivered input.timezone (dispatched lib tzdb (world.activitiesWith o updates)
      input) updates s)
    (howner : ∀ spec, UpdateEvent.owner ref spec ∉ es) :
    (∀ e, run lib tzdb (world.activitiesWith o updates) input = .error e →
      s.specs ref = specs ref) ∧
    (s.specs ref ≠ specs ref →
      ∃ a ∈ dispatched lib tzdb (world.activitiesWith o updates) input, a.scheduleRef = ref ∧
        (∃ spec, UpdatedTo sdk tzdb input.timezone a (specs ref) spec ∧
          s.specs ref = some spec) ∧
        ∃ now tz namespaces priced info desc,
          world.Plans o tzdb input a now tz namespaces priced info ∧
          world.LetsThrough input.query ((today tz now + 2) * 86400) namespaces info desc) ∧
    ∀ result, run lib tzdb (world.activitiesWith o updates) input = .ok result →
      ref ∈ result.updates.map ScheduleUpdateSummary.ref →
      ∃ a ∈ dispatched lib tzdb (world.activitiesWith o updates) input, a.scheduleRef = ref ∧
        ∃ spec, UpdatedTo sdk tzdb input.timezone a (specs ref) spec ∧
          s.specs ref = some spec := by
  have hcases := unchanged_or_updatedTo h howner
  refine ⟨?_, ?_, ?_⟩
  · intro e herror
    rcases hcases with hsame | ⟨a, ha, -⟩
    · exact hsame
    · rw [dispatched_eq_nil_of_error h hdelivered herror] at ha
      cases ha
  · intro hchanged
    rcases hcases with hsame | ⟨a, ha, href, hspec⟩
    · exact absurd hsame hchanged
    · obtain ⟨now, tz, namespaces, priced, info, hplans⟩ := World.exists_plans ha
      obtain ⟨desc, hthrough⟩ := World.letsThrough_of_mem hplans.discovered
      exact ⟨a, ha, href, hspec, now, tz, namespaces, priced, info, desc, hplans, hthrough⟩
  · intro result hrun hmem
    obtain ⟨u, hu, rfl⟩ := List.mem_map.1 hmem
    obtain ⟨i, a, ndt, rfl, hupdated, -, rfl⟩ := exists_update_of_reported h hdelivered hrun hu
    exact updatedTo_of_delivered h howner hdelivered rfl hupdated

/-- Whatever becomes of the attempts in between, the first window that a run reports for a schedule
is the one that the cluster has in the end, at which the schedule fires. -/
theorem reported_is_stored (world : World Calendar) (o : Orders) (lib : Libraries)
    (tzdb : String → Option Tz) (sdk : Sdk Calendar) (input : SchedulerInput)
    (updates : Nat → UpdateWindowsInput → Except String UpdateOutcome)
    (specs : ScheduleRef → Option (ScheduleSpec Calendar))
    (es : List (UpdateEvent (Fin (dispatched lib tzdb (world.activitiesWith o updates)
      input).length × Fin maximumAttempts) Calendar))
    (s : UpdateState (Fin (dispatched lib tzdb (world.activitiesWith o updates) input).length ×
      Fin maximumAttempts) Calendar)
    (result : SchedulerResult) (u : ScheduleUpdateSummary)
    (h : Machine.run (runUpdates sdk tzdb input.timezone (dispatched lib tzdb
      (world.activitiesWith o updates) input)).step es (.start specs) = some s)
    (hdelivered : Delivered input.timezone (dispatched lib tzdb (world.activitiesWith o updates)
      input) updates s)
    (hlist : world.listManagedNamespaces = .ok namespaces) (hns : namespaces.Nodup)
    (hids : ∀ ns ∈ namespaces, world.DistinctIds input.query ns)
    (hrun : run lib tzdb (world.activitiesWith o updates) input = .ok result)
    (hu : u ∈ result.updates) (howner : ∀ spec, UpdateEvent.owner u.ref spec ∉ es) :
    ∃ tz w ndt spec, tzdb input.timezone = some tz ∧ u.windows.head? = some w ∧
      andHmsOpt w.date w.hour w.minute = some ndt ∧
      rephase sdk (utcTs tz ndt) (specs u.ref) = .ok spec ∧ s.specs u.ref = some spec ∧
      ∀ old every, specs u.ref = some old → every ∈ old.everySecs → 0 < every →
        spec.FiresAt (utcTs tz ndt) := by
  obtain ⟨a, -, tz, ndt, spec, htz, hfirst, hndt, hwrite, hstored, hfires⟩ :=
    exists_stored_of_reported h hdelivered hlist hns hids hrun hu howner
  exact ⟨tz, a.window, ndt, spec, htz, hfirst, hndt, hwrite, hstored, hfires⟩

section Sample

/-- A solver that puts every variable above a half. -/
def eager : Libraries := ⟨fun _ => .ok fun _ => .infinity false, fun _ => ""⟩

def utcOnly : String → Option Tz := fun _ => some (WallClock.Zone.fixed 0)

/-- The first update is acknowledged, and all attempts at the others fail. -/
def firstAcknowledged : Nat → UpdateWindowsInput → Except String UpdateOutcome :=
  fun i _ => if i = 0 then .ok .updated else .error "timed out"

/-- Slots of two hours, in which every run fits. -/
def longSlots : World String := { twoNamespaces with slotDurationMins := 120 }

def longSlotsPlan : List ScheduleAssignment :=
  [⟨⟨"east", "backup"⟩, ⟨0, 0, 30⟩, 86400⟩, ⟨⟨"east", "report"⟩, ⟨0, 0, 30⟩, 86400⟩,
    ⟨⟨"west", "backup"⟩, ⟨0, 0, 30⟩, 86400⟩, ⟨⟨"west", "report"⟩, ⟨0, 0, 30⟩, 86400⟩]

def longSlotsSkips : List SkippedSchedule :=
  [⟨"east", "manual", "describe failed: timeout"⟩, ⟨"west", "manual", "describe failed: timeout"⟩,
    ⟨"east", "report", "update_schedule_windows failed: timed out"⟩,
    ⟨"west", "backup", "update_schedule_windows failed: timed out"⟩,
    ⟨"west", "report", "update_schedule_windows failed: timed out"⟩]

theorem longSlots_dispatched :
    dispatched eager utcOnly (longSlots.activitiesWith .asCalled firstAcknowledged) ⟨"q", "UTC"⟩ =
      longSlotsPlan := by
  decide +kernel

/-- The attempt at the first update is made alone. -/
theorem longSlots_attempt (h : assignments = longSlotsPlan) :
    ∃ es s, Machine.run (runUpdates (.plain String) utcOnly "UTC" assignments).step es
        (.start fun _ => some dailyAtNoon) = some s ∧
      Delivered "UTC" assignments firstAcknowledged s ∧
      ∀ ref spec, UpdateEvent.owner ref spec ∉ es := by
  subst h
  obtain ⟨answers, s, hrun, hphase, -⟩ := UpdateEnv.endsAs_activity
    (runUpdates (.plain String) utcOnly "UTC" longSlotsPlan)
    (s := .start fun _ => some dailyAtNoon) (k := (⟨0, by decide⟩, ⟨0, by decide⟩)) rfl
    (serving ⟨[], [], some dailyAtNoon⟩) (by rintro desc ⟨⟩; rfl)
  refine ⟨_, s, hrun, ?_, ?_⟩
  · intro i outcome houtcome
    have hi : i = ⟨0, by decide⟩ := by
      by_contra hne
      have hpos : (i : Nat) ≠ 0 := fun h => hne (Fin.ext h)
      simp only [firstAcknowledged, if_neg hpos, reduceCtorEq] at houtcome
    subst hi
    cases houtcome
    exact ⟨_, hphase⟩
  · intro ref spec hmem
    obtain ⟨answer, -, h⟩ := List.mem_map.1 hmem
    cases h

theorem longSlots_run :
    run eager utcOnly (longSlots.activitiesWith .asCalled firstAcknowledged) ⟨"q", "UTC"⟩ =
      .ok ⟨1, [⟨"east", "backup", [⟨0, 0, 30⟩]⟩], longSlotsSkips⟩ := by
  decide +kernel

theorem run_on_cluster_longSlots :
    ∃ es s, Machine.run (runUpdates (.plain String) utcOnly "UTC" (dispatched eager utcOnly
        (longSlots.activitiesWith .asCalled firstAcknowledged) ⟨"q", "UTC"⟩)).step es
        (.start fun _ => some dailyAtNoon) = some s ∧
      ∃ a ∈ longSlotsPlan, a.scheduleRef = ⟨"east", "backup"⟩ ∧
        ∃ spec, UpdatedTo (.plain String) utcOnly "UTC" a (some dailyAtNoon) spec ∧
          s.specs ⟨"east", "backup"⟩ = some spec := by
  obtain ⟨es, s, hes, hdelivered, howner⟩ := longSlots_attempt longSlots_dispatched
  refine ⟨es, s, hes, ?_⟩
  obtain ⟨a, ha, hspec⟩ := (run_on_cluster longSlots .asCalled eager utcOnly (.plain String)
    ⟨"q", "UTC"⟩ firstAcknowledged _ es s ⟨"east", "backup"⟩ hes hdelivered (howner _)).2.2 _
    longSlots_run (List.mem_singleton.2 rfl)
  rw [longSlots_dispatched] at ha
  exact ⟨a, ha, hspec⟩

theorem reported_is_stored_longSlots :
    ∃ spec, rephase (.plain String) 1800 (some dailyAtNoon) = .ok spec ∧ spec.FiresAt 1800 := by
  obtain ⟨es, s, hes, hdelivered, howner⟩ := longSlots_attempt longSlots_dispatched
  have hlist : longSlots.listManagedNamespaces = .ok ["east", "west"] := rfl
  have hids : ∀ ns ∈ ["east", "west"], longSlots.DistinctIds "q" ns := by
    intro ns _ ids hids
    cases hids
    decide
  obtain ⟨tz, w, ndt, spec, htz, hw, hndt, hwrite, -, hfires⟩ := reported_is_stored longSlots
    .asCalled eager utcOnly (.plain String) ⟨"q", "UTC"⟩ firstAcknowledged _ es s
    _ ⟨"east", "backup", [⟨0, 0, 30⟩]⟩ hes hdelivered hlist (by decide) hids longSlots_run
    (List.mem_singleton.2 rfl) (howner _)
  cases htz
  cases hw
  cases hndt
  exact ⟨spec, hwrite, hfires dailyAtNoon 86400 rfl (by decide) (by decide)⟩

end Sample

end Gridshift
