import Gridshift.Nights

namespace Gridshift
open Machine Sorting
set_option autoImplicit true

/-- What one start of the program meets: its variables, the way to the cluster, and the time zone
of its machine. -/
structure Starter where
  var : String → Option String
  connected : Except String Unit
  systemTimezone : Except String String

/-- The workflow that a schedule starts. -/
structure StartWorkflow where
  input : SchedulerInput
  taskQueue : String
  workflowIdPrefix : String

/-- The request for a new schedule. -/
structure CreateSchedule (Calendar : Type) where
  scheduleId : String
  action : StartWorkflow
  spec : BuiltSpec Calendar

/-- A schedule of the namespace; it may well be another's, which starts something else. -/
structure StoredSchedule (Calendar : Type) where
  spec : Option (ScheduleSpec Calendar)
  action : Option StartWorkflow

def CreateSchedule.stored (new : CreateSchedule Calendar) : StoredSchedule Calendar :=
  ⟨some new.spec.toProto, some new.action⟩

/-- A byte's decimal digits, after a plus sign or without. -/
def parseU8 (s : String) : Option Nat :=
  let digits := match s.toList with
    | '+' :: cs => cs
    | cs => cs
  if digits.isEmpty ∨ ¬ digits.all Char.isDigit then none
  else
    let n := digits.foldl (fun n c => n * 10 + (c.toNat - '0'.toNat)) 0
    if n < 256 then some n else none

section Start
variable (tzdb : String → Option Tz) (hour : String → Calendar)

/-- The schedule that a starter asks for; `hour` is the calendar of an hour of the day. -/
def Starter.schedule (m : Starter) : Except String (CreateSchedule Calendar) := do
  let taskQueue := (m.var "GRIDSHIFT_TASK_QUEUE").getD "gridshift"
  let query ← (m.var "GRIDSHIFT_QUERY").elim (.error "GRIDSHIFT_QUERY is required") .ok
  m.connected
  let timezone ← (m.var "GRIDSHIFT_TIMEZONE").elim
    (m.systemTimezone.mapError fun e =>
      s!"cannot determine timezone: {e}; set GRIDSHIFT_TIMEZONE") .ok
  let _ ← (tzdb timezone).elim (.error
    s!"invalid IANA timezone {debugStr timezone}; check GRIDSHIFT_TIMEZONE or system timezone") .ok
  let scheduleHour := ((m.var "GRIDSHIFT_SCHEDULE_HOUR").bind parseU8).getD 20
  return {
    scheduleId := (m.var "GRIDSHIFT_SCHEDULE_ID").getD "gridshift"
    action := {
      input := ⟨query, timezone⟩
      taskQueue := taskQueue
      workflowIdPrefix := (m.var "GRIDSHIFT_WORKFLOW_ID").getD taskQueue }
    spec := {
      calendars := [hour (toString scheduleHour)]
      timezoneName := timezone
      jitter := some (30 * 60) } }

/-- The cluster's answer to a request for a schedule, which may be lost after it was carried out. -/
inductive CreateAnswer where
  | created
  | alreadyExists
  | failed (carriedOut : Bool) (message : String)

structure Start where
  starter : Starter
  answer : CreateAnswer

/-- The program's end. -/
def Start.main (e : Start) : Except String Unit := do
  let _ ← e.starter.schedule tzdb hour
  match e.answer with
  | .created => return
  | .alreadyExists => return
  | .failed _ message => .error message

/-- The program is started, or the owners of the namespace put or delete a schedule. -/
inductive StarterEvent (Calendar : Type) where
  | start (e : Start)
  | owner (scheduleId : String) (s : Option (StoredSchedule Calendar))

/-- The schedules of the namespace, where none is created under an id that is taken. -/
abbrev Schedules (Calendar : Type) := String → Option (StoredSchedule Calendar)

def Schedules.create (schedules : Schedules Calendar) (new : CreateSchedule Calendar) :
    Schedules Calendar :=
  if (schedules new.scheduleId).isSome then schedules
  else Function.update schedules new.scheduleId (some new.stored)

/-- What a start does to the schedules; `none` where its answer cannot come. -/
def Start.step (e : Start) (schedules : Schedules Calendar) : Option (Schedules Calendar) :=
  match e.starter.schedule tzdb hour, e.answer with
  | .error _, _ => some schedules
  | .ok new, .created =>
    if (schedules new.scheduleId).isSome then none else some (schedules.create new)
  | .ok new, .alreadyExists => if (schedules new.scheduleId).isSome then some schedules else none
  | .ok new, .failed carriedOut _ => some (if carriedOut then schedules.create new else schedules)

def StarterEvent.step : StarterEvent Calendar → Schedules Calendar → Option (Schedules Calendar)
  | .start e, schedules => e.step tzdb hour schedules
  | .owner sid s, schedules => some (Function.update schedules sid s)

variable {tzdb hour}

/-- A start leaves the schedules as they are, or adds the one that it asks for. -/
theorem Start.step_cases {e : Start} {schedules schedules' : Schedules Calendar}
    (h : e.step tzdb hour schedules = some schedules') :
    schedules' = schedules ∨
      ∃ new, e.starter.schedule tzdb hour = .ok new ∧ schedules' = schedules.create new := by
  rw [Start.step] at h
  cases hnew : e.starter.schedule tzdb hour with
  | error message =>
    rw [hnew] at h
    exact .inl (Option.some.inj h).symm
  | ok new =>
    have hcreate : schedules' = schedules.create new → schedules' = schedules ∨
        ∃ new', Except.ok new = (.ok new' : Except String _) ∧ schedules' = schedules.create new' :=
      fun h => .inr ⟨new, rfl, h⟩
    rw [hnew] at h
    cases hanswer : e.answer with
    | created =>
      simp only [hanswer, Option.ite_none_left_eq_some, Option.some.injEq] at h
      exact hcreate h.2.symm
    | alreadyExists =>
      simp only [hanswer, Option.ite_none_right_eq_some, Option.some.injEq] at h
      exact .inl h.2.symm
    | failed carriedOut message =>
      simp only [hanswer, Option.some.injEq] at h
      cases carriedOut with
      | false => exact .inl h.symm
      | true => exact hcreate h.symm

theorem Schedules.create_of_some {schedules : Schedules Calendar} (h : schedules sid = some old)
    (new : CreateSchedule Calendar) : schedules.create new sid = some old := by
  rw [Schedules.create]
  split
  · exact h
  · rename_i hfree
    rw [Function.update_of_ne, h]
    rintro rfl
    rw [h] at hfree
    exact hfree rfl

theorem Schedules.create_eq_some {schedules : Schedules Calendar}
    (h : schedules.create new sid = some s) :
    schedules sid = some s ∨ new.stored = s ∧ new.scheduleId = sid := by
  rw [Schedules.create] at h
  split at h
  · exact .inl h
  · by_cases hid : sid = new.scheduleId
    · subst hid
      rw [Function.update_self] at h
      exact .inr ⟨Option.some.inj h, rfl⟩
    · rw [Function.update_of_ne hid] at h
      exact .inl h

theorem Schedules.isSome_create (schedules : Schedules Calendar) (new : CreateSchedule Calendar) :
    (schedules.create new new.scheduleId).isSome := by
  rw [Schedules.create]
  split
  · assumption
  · rw [Function.update_self]
    rfl

/-- A start that ends well has left a schedule under its id, its own or an earlier one. -/
theorem Start.isSome_of_main {e : Start} {schedules schedules' : Schedules Calendar}
    (hstep : e.step tzdb hour schedules = some schedules') (hmain : e.main tzdb hour = .ok ()) :
    ∃ new, e.starter.schedule tzdb hour = .ok new ∧ (schedules' new.scheduleId).isSome := by
  rw [Start.step] at hstep
  rw [Start.main] at hmain
  cases hnew : e.starter.schedule tzdb hour with
  | error message =>
    rw [hnew] at hmain
    cases hmain
  | ok new =>
    rw [hnew] at hstep hmain
    refine ⟨new, rfl, ?_⟩
    cases hanswer : e.answer with
    | created =>
      simp only [hanswer, Option.ite_none_left_eq_some, Option.some.injEq] at hstep
      rw [← hstep.2]
      exact schedules.isSome_create new
    | alreadyExists =>
      simp only [hanswer, Option.ite_none_right_eq_some, Option.some.injEq] at hstep
      rw [← hstep.2]
      exact hstep.1
    | failed carriedOut message =>
      simp only [hanswer] at hmain
      cases hmain

section Runs
variable {es : List (StarterEvent Calendar)} {before after : Schedules Calendar}
  (h : Machine.run (StarterEvent.step tzdb hour) es before = some after)
include h

theorem kept_of_starts (howner : ∀ s, StarterEvent.owner sid s ∉ es)
    (hs : before sid = some old) : after sid = some old := by
  revert howner
  apply Machine.run_induction (P := fun es schedules =>
    (∀ s, StarterEvent.owner sid s ∉ es) → schedules sid = some old) h fun _ => hs
  intro es e t u _ ih hstep howner
  have ht := ih fun s hmem => howner s (List.mem_append_left _ hmem)
  cases e with
  | start e =>
    rcases Start.step_cases hstep with rfl | ⟨new, -, rfl⟩
    · exact ht
    · exact Schedules.create_of_some ht new
  | owner sid' s =>
    cases hstep
    have hne : sid ≠ sid' := fun h => howner s (h ▸ List.mem_append_right _ (List.mem_singleton.2 rfl))
    exact (Function.update_of_ne hne ..).trans ht

theorem origin_of_starts (hs : after sid = some s) :
    before sid = some s ∨ .owner sid (some s) ∈ es ∨
      ∃ e new, .start e ∈ es ∧ e.starter.schedule tzdb hour = .ok new ∧ new.scheduleId = sid ∧
        new.stored = s := by
  revert hs
  apply Machine.run_induction (P := fun es schedules => schedules sid = some s →
    before sid = some s ∨ .owner sid (some s) ∈ es ∨
      ∃ e new, .start e ∈ es ∧ e.starter.schedule tzdb hour = .ok new ∧ new.scheduleId = sid ∧
        new.stored = s) h .inl
  intro es e t u _ ih hstep hs
  have hlast : e ∈ es ++ [e] := List.mem_append_right _ (List.mem_singleton.2 rfl)
  -- what was there before this event has come from one of the earlier
  have hearlier (ht : t sid = some s) : before sid = some s ∨ .owner sid (some s) ∈ es ++ [e] ∨
      ∃ e' new, .start e' ∈ es ++ [e] ∧ e'.starter.schedule tzdb hour = .ok new ∧
        new.scheduleId = sid ∧ new.stored = s := by
    rcases ih ht with hbefore | howner | ⟨e', new, he', horigin⟩
    · exact .inl hbefore
    · exact .inr (.inl (List.mem_append_left _ howner))
    · exact .inr (.inr ⟨e', new, List.mem_append_left _ he', horigin⟩)
  cases e with
  | start e =>
    rcases Start.step_cases hstep with rfl | ⟨new, hnew, rfl⟩
    · exact hearlier hs
    · rcases Schedules.create_eq_some hs with hs | ⟨hstored, hid⟩
      · exact hearlier hs
      · exact .inr (.inr ⟨e, new, hlast, hnew, hid, hstored⟩)
  | owner sid' s' =>
    cases hstep
    by_cases hid : sid = sid'
    · subst hid
      rw [Function.update_self] at hs
      exact .inr (.inl (hs ▸ hlast))
    · rw [Function.update_of_ne hid] at hs
      exact hearlier hs

theorem isSome_of_starts {e : Start} (he : .start e ∈ es) (hmain : e.main tzdb hour = .ok ()) :
    ∃ new, e.starter.schedule tzdb hour = .ok new ∧
      ((∀ s, StarterEvent.owner new.scheduleId s ∉ es) → (after new.scheduleId).isSome) := by
  obtain ⟨es, es', rfl⟩ := List.append_of_mem he
  obtain ⟨t, -, hrest⟩ := (Machine.run_append_iff _).1 h
  obtain ⟨u, hstep, hrest⟩ := (Machine.run_cons_iff _).1 hrest
  obtain ⟨new, hnew, hsome⟩ := Start.isSome_of_main hstep hmain
  refine ⟨new, hnew, fun howner => ?_⟩
  obtain ⟨stored, hstored⟩ := Option.isSome_iff_exists.1 hsome
  refine Option.isSome_iff_exists.2 ⟨stored, kept_of_starts hrest ?_ hstored⟩
  exact fun s hmem => howner s (List.mem_append_right _ (List.mem_cons_of_mem _ hmem))

end Runs

/-- A starter asks for a schedule only in a time zone that a run can read, and for one without an
interval. -/
theorem Starter.of_schedule {m : Starter} (h : m.schedule tzdb hour = .ok new) :
    (∃ tz, tzdb new.action.input.timezone = some tz) ∧
      new.spec.timezoneName = new.action.input.timezone ∧ new.spec.intervals = [] := by
  simp only [Starter.schedule, except_bind_eq_ok_iff] at h
  obtain ⟨query, -, u, -, timezone, -, tz, htz, hnew⟩ := h
  cases hnew
  refine ⟨?_, rfl, rfl⟩
  change ∃ tz, tzdb timezone = some tz
  cases hzone : tzdb timezone with
  | none =>
    rw [hzone] at htz
    cases htz
  | some tz => exact ⟨tz, rfl⟩

/-- A schedule of the starter's: it fires in the time zone that its runs are given, they can read
that, and no nights plan it or change it, even if their query finds it. -/
structure StoredSchedule.Own (tzdb : String → Option Tz) (s : StoredSchedule Calendar) : Prop where
  zone : ∃ action spec tz, s.action = some action ∧ s.spec = some spec ∧
    tzdb action.input.timezone = some tz ∧ spec.timezoneName = action.input.timezone
  untouched : ∀ (sdk : Sdk Calendar) (nights : Nat → Night Calendar) specs es u ref,
    specs ref = s.spec →
    Machine.run (nightlyUpdates sdk tzdb nights).step es (.start specs) = some u →
    (∀ spec, UpdateEvent.owner ref spec ∉ es) → ReadsBefore sdk tzdb nights specs es ref →
    u.specs ref = s.spec ∧ ∀ n, ∀ a ∈ (nights n).assignments tzdb, a.scheduleRef ≠ ref

theorem Starter.own_of_schedule {m : Starter} (h : m.schedule tzdb hour = .ok new) :
    new.stored.Own tzdb := by
  obtain ⟨⟨tz, hzone⟩, hsame, hnone⟩ := Starter.of_schedule h
  refine ⟨⟨_, _, tz, rfl, rfl, hzone, hsame⟩, ?_⟩
  intro sdk nights specs es u ref hspec hrun howner hreads
  rw [← hspec]
  apply nights_untouched hrun howner hreads
  intro secs hsecs
  rw [hspec, CreateSchedule.stored, firstIntervalSecs, Option.bind_some, BuiltSpec.toProto,
    hnone] at hsecs
  cases hsecs

/-- However often the program is started, whatever is lost of it, and whatever the owners do to
other schedules: what is under an id stays there; a start that ends well has left something under
its own; and what is there at the end was there before, was put there by the owners, or is a
starter's, whose runs can read the time zone in which it fires and which no nights ever touch. -/
theorem starter_schedule_stays (tzdb : String → Option Tz) (hour : String → Calendar)
    (es : List (StarterEvent Calendar)) (before after : Schedules Calendar)
    (h : Machine.run (StarterEvent.step tzdb hour) es before = some after) :
    (∀ sid, (∀ s, StarterEvent.owner sid s ∉ es) →
      ∀ old, before sid = some old → after sid = some old) ∧
    (∀ e, .start e ∈ es → e.main tzdb hour = .ok () →
      ∃ new, e.starter.schedule tzdb hour = .ok new ∧
        ((∀ s, StarterEvent.owner new.scheduleId s ∉ es) → (after new.scheduleId).isSome)) ∧
    ∀ sid s, after sid = some s →
      before sid = some s ∨ .owner sid (some s) ∈ es ∨
        (∃ e new, .start e ∈ es ∧ e.starter.schedule tzdb hour = .ok new ∧ new.scheduleId = sid ∧
          new.stored = s) ∧ s.Own tzdb := by
  refine ⟨fun sid howner old => kept_of_starts h howner, fun e he => isSome_of_starts h he, ?_⟩
  intro sid s hs
  rcases origin_of_starts h hs with hbefore | howner | ⟨e, new, he, hnew, hid, rfl⟩
  · exact .inl hbefore
  · exact .inr (.inl howner)
  · exact .inr (.inr ⟨⟨e, new, he, hnew, hid, rfl⟩, Starter.own_of_schedule hnew⟩)

end Start

section Sample

def utcStarter : Starter where
  var name :=
    if name = "GRIDSHIFT_QUERY" then some "EnergyIntensive = true"
    else if name = "GRIDSHIFT_SCHEDULE_HOUR" then some "+16"
    else none
  connected := .ok ()
  systemTimezone := .ok "UTC"

/-- The same, under the id of a schedule that is not the starter's. -/
def backupStarter : Starter :=
  { utcStarter with
    var name := if name = "GRIDSHIFT_SCHEDULE_ID" then some "backup" else utcStarter.var name }

def atSixteen : ScheduleSpec String := ⟨[], ["16"], [], some (ofSecs 1800), none, none, "UTC"⟩

def backups : StoredSchedule String := ⟨some (everyDay none), none⟩

/-- The schedule of the starter is found by the query of its own runs. -/
def starterSlots : World String :=
  { longSlots with
    discovery := { longSlots.discovery with
      listSchedules _ _ := [.ok "backup", .ok "gridshift"]
      describe r := if r.scheduleId = "gridshift" then .ok ⟨[], [], some atSixteen⟩
        else longSlots.discovery.describe r } }

def starterNights (_ : Nat) : Night String :=
  ⟨starterSlots, .asCalled, eager, ⟨"q", "UTC"⟩, firstAcknowledged⟩

/-- What is on the cluster when the nights begin. -/
def starterSpecs (ref : ScheduleRef) : Option (ScheduleSpec String) :=
  if ref.scheduleId = "gridshift" then some atSixteen else some (everyDay none)

theorem starterSlots_dispatched :
    (starterNights 0).assignments utcOnly =
      [⟨⟨"east", "backup"⟩, ⟨0, 0, 30⟩, 86400⟩, ⟨⟨"west", "backup"⟩, ⟨0, 0, 30⟩, 86400⟩] := by
  decide +kernel

/-- The first start is told nothing of the schedule that it has created, the second finds it, and
the third finds another's. -/
def threeStarts : List (StarterEvent String) :=
  [.start ⟨utcStarter, .failed true "timed out"⟩, .start ⟨utcStarter, .alreadyExists⟩,
    .start ⟨backupStarter, .alreadyExists⟩]

theorem utcStarter_schedule :
    utcStarter.schedule utcOnly id = .ok ⟨"gridshift",
      ⟨⟨"EnergyIntensive = true", "UTC"⟩, "gridshift", "gridshift"⟩,
      { calendars := ["16"], jitter := some 1800, timezoneName := "UTC" }⟩ := by
  rfl

theorem backupStarter_schedule :
    backupStarter.schedule utcOnly id = .ok ⟨"backup",
      ⟨⟨"EnergyIntensive = true", "UTC"⟩, "gridshift", "gridshift"⟩,
      { calendars := ["16"], jitter := some 1800, timezoneName := "UTC" }⟩ := by
  rfl

/-- The night after, the update of another schedule lands. -/
theorem starterNights_run :
    ∃ es u, Machine.run (nightlyUpdates (.plain String) utcOnly starterNights).step es
        (.start starterSpecs) = some u ∧
      u.specs ⟨"east", "backup"⟩ = some (everyDay (some 1800)) ∧
      (∀ ref spec, UpdateEvent.owner ref spec ∉ es) ∧
      ReadsBefore (.plain String) utcOnly starterNights starterSpecs es ⟨"east", "gridshift"⟩ := by
  let env := nightlyUpdates (.plain String) utcOnly starterNights
  have hpos : 0 < ((starterNights 0).assignments utcOnly).length :=
    starterSlots_dispatched ▸ Nat.succ_pos _
  let k := firstUpdate starterNights 0 hpos
  have hinput : env.input k = _ := input_firstUpdate starterSlots_dispatched hpos
  have htarget : env.target k = ⟨"east", "backup"⟩ := by
    rw [UpdateEnv.target, hinput]
    rfl
  have hspec : env.rewrite k (starterSpecs (env.target k)) = .ok (everyDay (some 1800)) := by
    rw [UpdateEnv.rewrite, hinput, htarget]
    rfl
  obtain ⟨u, hrun, hspecs, -, -⟩ := UpdateEnv.landed_of_rewrite (s := .start starterSpecs) rfl hspec
  refine ⟨landed k, u, hrun, ?_, ?_, ?_⟩
  · rw [hspecs, htarget, Function.update_self]
  · intro ref spec
    simp [landed]
  · intro n desc hdesc
    cases hdesc
    exact ⟨[], _, List.nil_prefix, rfl, rfl, fun j answer hmem => absurd hmem List.not_mem_nil⟩

theorem starter_schedule_stays_threeStarts :
    ∃ after : Schedules String,
      Machine.run (StarterEvent.step utcOnly id) threeStarts
        (Function.update (fun _ => none) "backup" (some backups)) = some after ∧
      after "backup" = some backups ∧
      ∃ s, after "gridshift" = some s ∧ s.spec = some atSixteen ∧
        ∃ es u, Machine.run (nightlyUpdates (.plain String) utcOnly starterNights).step es
            (.start starterSpecs) = some u ∧
          u.specs ⟨"east", "backup"⟩ = some (everyDay (some 1800)) ∧
          u.specs ⟨"east", "gridshift"⟩ = some atSixteen := by
  have hrun : (Machine.run (StarterEvent.step utcOnly id) threeStarts
      (Function.update (fun _ => none) "backup" (some backups))).isSome := by decide +kernel
  obtain ⟨after, hafter⟩ := Option.isSome_iff_exists.1 hrun
  have howner (sid : String) (s : Option (StoredSchedule String)) :
      StarterEvent.owner sid s ∉ threeStarts := by simp [threeStarts]
  obtain ⟨hkept, hleft, horigin⟩ := starter_schedule_stays utcOnly id threeStarts _ after hafter
  obtain ⟨new, hnew, hsome⟩ := hleft ⟨utcStarter, .alreadyExists⟩ (by simp [threeStarts]) rfl
  cases utcStarter_schedule.symm.trans hnew
  obtain ⟨s, hs⟩ := Option.isSome_iff_exists.1 (hsome (howner _))
  refine ⟨after, hafter, hkept "backup" (howner _) backups rfl, s, hs, ?_⟩
  rcases horigin "gridshift" s hs with hbefore | hput | ⟨⟨e, new, he, hnew, hid, rfl⟩, hown⟩
  · cases hbefore
  · exact absurd hput (howner _ _)
  · have hspec : new.stored.spec = some atSixteen := by
      simp only [threeStarts, List.mem_cons, StarterEvent.start.injEq, List.not_mem_nil,
        or_false] at he
      rcases he with rfl | rfl | rfl
      · cases utcStarter_schedule.symm.trans hnew
        rfl
      · cases utcStarter_schedule.symm.trans hnew
        rfl
      · cases backupStarter_schedule.symm.trans hnew
        exact absurd hid (by decide)
    obtain ⟨es, u, hrun, hbackup, hspared, hreads⟩ := starterNights_run
    refine ⟨hspec, es, u, hrun, hbackup, hspec ▸ ?_⟩
    exact (hown.untouched _ starterNights starterSpecs es u ⟨"east", "gridshift"⟩ hspec.symm hrun
      (hspared _) hreads).1

end Sample

end Gridshift
