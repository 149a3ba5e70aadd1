import Gridshift.ScheduleSpec

namespace Gridshift
open IntervalGrid Sorting
set_option autoImplicit true

def tsToSt (secs nanos : Int) : Except String (Option SystemTime) :=
  if secs < 0 then .ok none
  else
    let d : Int := secs * 10 ^ 9 + max nanos 0
    if d < 2 ^ 63 * 10 ^ 9 then .ok (some d)
    else .error "overflow when adding duration to instant"

def phaseOf (utcTs everySecs : Nat) : Nat := if 0 < everySecs then utcTs % everySecs else 0

def rephaseInterval (utcTs : Nat) (iv : IntervalSpec) : Option ScheduleIntervalSpec := do
  let everySecs := (max (← iv.interval).seconds 0).toNat
  return ⟨everySecs, some (phaseOf utcTs everySecs)⟩

theorem rephaseInterval_eq (utcTs : Nat) (iv : IntervalSpec) :
    rephaseInterval utcTs iv = (iv.interval.map fun d => (max d.seconds 0).toNat).map
      fun every => ⟨every, some (phaseOf utcTs every)⟩ := by
  cases h : iv.interval with
  | none => simp [rephaseInterval, h]
  | some d => simp [rephaseInterval, h]

/-- The closure that the update applies to the spec it finds; an error is a panic. -/
def rephase (sdk : Sdk Calendar) (utcTs : Nat) (s : Option (ScheduleSpec Calendar)) :
    Except String (ScheduleSpec Calendar) := do
  let startTime ← (s.bind ScheduleSpec.startTime).elim (.ok none)
    fun ts => tsToSt ts.seconds ts.nanos
  let endTime ← (s.bind ScheduleSpec.endTime).elim (.ok none)
    fun ts => tsToSt ts.seconds ts.nanos
  return sdk.setSpec {
    intervals := (s.map fun spec => spec.interval.filterMap (rephaseInterval utcTs)).getD []
    timezoneName := (s.map ScheduleSpec.timezoneName).getD ""
    jitter := (s.bind ScheduleSpec.jitter).map fun d => (max d.seconds 0).toNat
    startTime := startTime
    endTime := endTime }

theorem rephase_eq_ok_iff {ts : Nat} {s : Option (ScheduleSpec Calendar)} :
    rephase sdk ts s = .ok spec' ↔
      ∃ st et, (s.bind ScheduleSpec.startTime).elim (.ok none)
          (fun ts => tsToSt ts.seconds ts.nanos) = .ok st ∧
        (s.bind ScheduleSpec.endTime).elim (.ok none)
          (fun ts => tsToSt ts.seconds ts.nanos) = .ok et ∧
        spec' = ({
          intervals := (s.map fun spec => spec.interval.filterMap (rephaseInterval ts)).getD []
          timezoneName := (s.map ScheduleSpec.timezoneName).getD ""
          jitter := (s.bind ScheduleSpec.jitter).map fun d => (max d.seconds 0).toNat
          startTime := st
          endTime := et } : BuiltSpec Calendar).toProto := by
  simp only [rephase, except_bind_eq_ok_iff, sdk.replaces, pure, Except.pure, Except.ok.injEq]
  constructor
  · rintro ⟨st, hst, et, het, rfl⟩
    exact ⟨st, et, hst, het, rfl⟩
  · rintro ⟨st, et, hst, het, rfl⟩
    exact ⟨st, hst, et, het, rfl⟩

def padTwo (n : Nat) : String := if n < 10 then s!"0{n}" else s!"{n}"

/-- The activity's outcome, and the spec it leaves on the server if it wrote one. -/
def updateScheduleWindows (sdk : Sdk Calendar) (cluster : Cluster Calendar)
    (tzdb : String → Option Tz) (input : UpdateWindowsInput) :
    Except String (UpdateOutcome × Option (ScheduleSpec Calendar)) := do
  cluster.clientFor input.namespace
  let tz ← (tzdb input.timezone).elim (.error s!"invalid timezone: {debugStr input.timezone}") .ok
  let ndt ← (andHmsOpt input.window.date input.window.hour input.window.minute).elim
    (.error s!"invalid window {padTwo input.window.hour}:{padTwo input.window.minute}") .ok
  let scheduleRef : ScheduleRef := ⟨input.namespace, input.scheduleId⟩
  let failed (e : ScheduleError) :
      Except String (UpdateOutcome × Option (ScheduleSpec Calendar)) :=
    match e with
    | .rpc .notFound _ => .ok (.skipped "schedule no longer exists", none)
    | .rpc .permissionDenied _ => .ok (.skipped "permission denied updating schedule", none)
    | e => .error e.message
  match cluster.describe scheduleRef with
  | .error e => failed e
  | .ok desc =>
    let spec ← rephase sdk (utcTs tz ndt) desc.spec
    match cluster.accept scheduleRef spec with
    | .error e => failed e
    | .ok () => .ok (.updated, some spec)

/-- An update that writes reports so, and writes what the closure makes of the spec it found. -/
theorem updateScheduleWindows_some_iff {cluster : Cluster Calendar} :
    updateScheduleWindows sdk cluster tzdb input = .ok (outcome, some spec') ↔
      outcome = .updated ∧ cluster.clientFor input.namespace = .ok () ∧
      ∃ tz, tzdb input.timezone = some tz ∧
      ∃ ndt, andHmsOpt input.window.date input.window.hour input.window.minute = some ndt ∧
      ∃ desc, cluster.describe ⟨input.namespace, input.scheduleId⟩ = .ok desc ∧
        rephase sdk (utcTs tz ndt) desc.spec = .ok spec' ∧
        cluster.accept ⟨input.namespace, input.scheduleId⟩ spec' = .ok () := by
  simp only [updateScheduleWindows, except_bind_eq_ok_iff, elim_eq_ok_iff]
  have hfailed (e : ScheduleError) : ¬ (match e with
      | .rpc .notFound _ => .ok (.skipped "schedule no longer exists", none)
      | .rpc .permissionDenied _ => .ok (.skipped "permission denied updating schedule", none)
      | e => .error e.message : Except String (UpdateOutcome × Option (ScheduleSpec Calendar))) =
        .ok (outcome, some spec') := by
    split <;> simp
  constructor
  · rintro ⟨⟨⟩, hclient, tz, htz, ndt, hndt, h⟩
    suffices hwritten : outcome = .updated ∧ _ from
      ⟨hwritten.1, hclient, tz, htz, ndt, hndt, hwritten.2⟩
    cases hdesc : cluster.describe ⟨input.namespace, input.scheduleId⟩ with
    | error e =>
      rw [hdesc] at h
      exact (hfailed e h).elim
    | ok desc =>
      rw [hdesc] at h
      obtain ⟨spec, hspec, h⟩ := except_bind_eq_ok_iff.1 h
      cases haccept : cluster.accept ⟨input.namespace, input.scheduleId⟩ spec with
      | error e =>
        rw [haccept] at h
        exact (hfailed e h).elim
      | ok u =>
        rw [haccept] at h
        cases h
        exact ⟨rfl, desc, rfl, hspec, haccept⟩
  · rintro ⟨rfl, hclient, tz, htz, ndt, hndt, desc, hdesc, hspec, haccept⟩
    refine ⟨(), hclient, tz, htz, ndt, hndt, ?_⟩
    rw [hdesc]
    exact except_bind_eq_ok_iff.2 ⟨spec', hspec, by rw [haccept]⟩

end Gridshift
