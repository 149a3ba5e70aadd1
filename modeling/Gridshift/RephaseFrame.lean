import Gridshift.Rephase
import Gridshift.Discovery

namespace Gridshift
open Sorting
set_option autoImplicit true

def ProtoDuration.WholeSecs (d : ProtoDuration) : Prop := 0 ≤ d.seconds ∧ d.nanos = 0

/-- A normalised timestamp from the epoch on, within the range of a system time. -/
def ProtoTimestamp.SinceEpoch (ts : ProtoTimestamp) : Prop :=
  0 ≤ ts.seconds ∧ ts.seconds < 2 ^ 63 ∧ 0 ≤ ts.nanos ∧ ts.nanos < 10 ^ 9

/-- A spec that the update can rebuild: it has no calendars and nothing finer than it reads. -/
structure ScheduleSpec.Plain (spec : ScheduleSpec Calendar) : Prop where
  calendar : spec.calendar = []
  excludeCalendar : spec.excludeCalendar = []
  interval : ∀ iv ∈ spec.interval, ∃ d ∈ iv.interval, d.WholeSecs
  jitter : ∀ d ∈ spec.jitter, d.WholeSecs
  startTime : ∀ ts ∈ spec.startTime, ts.SinceEpoch
  endTime : ∀ ts ∈ spec.endTime, ts.SinceEpoch

theorem ofSecs_clamp_eq_iff (d : ProtoDuration) :
    ofSecs (max d.seconds 0).toNat = d ↔ d.WholeSecs := by
  cases d
  simp only [ofSecs, ProtoDuration.mk.injEq, ProtoDuration.WholeSecs]
  omega

theorem jitter_kept_iff (jitter : Option ProtoDuration) :
    (jitter.map fun d => (max d.seconds 0).toNat).map ofSecs = jitter ↔
      ∀ d ∈ jitter, d.WholeSecs := by
  cases jitter with
  | none => simp
  | some d => simpa using ofSecs_clamp_eq_iff d

theorem tsToSt_kept_iff (ts : ProtoTimestamp) :
    (∃ st, tsToSt ts.seconds ts.nanos = .ok st ∧ st.map ofSystemTime = some ts) ↔
      ts.SinceEpoch := by
  cases ts with
  | mk seconds nanos =>
    simp only [tsToSt, ProtoTimestamp.SinceEpoch]
    split
    · simp only [Except.ok.injEq, exists_eq_left', Option.map_none, reduceCtorEq, false_iff]
      omega
    · split
      · simp only [Except.ok.injEq, exists_eq_left', Option.map_some, Option.some.injEq,
          ofSystemTime, ProtoTimestamp.mk.injEq]
        omega
      · simp only [reduceCtorEq, false_and, exists_false, false_iff]
        omega

theorem time_kept_iff (time : Option ProtoTimestamp) :
    (∃ st, time.elim (Except.ok none) (fun ts => tsToSt ts.seconds ts.nanos) = .ok st ∧
      st.map ofSystemTime = time) ↔ ∀ ts ∈ time, ts.SinceEpoch := by
  cases time with
  | none => simp
  | some ts => simpa using tsToSt_kept_iff ts

theorem interval_kept_iff (utcTs : Nat) (iv : IntervalSpec) :
    (rephaseInterval utcTs iv).map (fun b => (⟨some (ofSecs b.every), none⟩ : IntervalSpec)) =
        some { iv with phase := none } ↔
      ∃ d ∈ iv.interval, d.WholeSecs := by
  cases iv with
  | mk interval phase =>
    cases interval with
    | none => simp [rephaseInterval]
    | some d => simp [rephaseInterval, ofSecs_clamp_eq_iff]

theorem intervals_kept_iff (utcTs : Nat) (interval : List IntervalSpec) :
    (interval.filterMap (rephaseInterval utcTs)).map
        (fun b => (⟨some (ofSecs b.every), none⟩ : IntervalSpec)) =
      (interval.map fun iv => { iv with phase := none }) ↔
      ∀ iv ∈ interval, ∃ d ∈ iv.interval, d.WholeSecs := by
  rw [List.map_filterMap, filterMap_eq_map_iff]
  exact forall₂_congr fun iv _ => interval_kept_iff utcTs iv

theorem rephase_some_eq_ok_iff {spec : ScheduleSpec Calendar} {utcTs : Nat} :
    rephase sdk utcTs (some spec) = .ok spec' ↔
      ∃ st et, spec.startTime.elim (.ok none) (fun ts => tsToSt ts.seconds ts.nanos) = .ok st ∧
        spec.endTime.elim (.ok none) (fun ts => tsToSt ts.seconds ts.nanos) = .ok et ∧
        spec' = ({
          intervals := spec.interval.filterMap (rephaseInterval utcTs)
          timezoneName := spec.timezoneName
          jitter := spec.jitter.map fun d => (max d.seconds 0).toNat
          startTime := st
          endTime := et } : BuiltSpec Calendar).toProto := by
  rw [rephase_eq_ok_iff, Option.bind_some, Option.bind_some, Option.bind_some, Option.map_some,
    Option.map_some, Option.getD_some, Option.getD_some]

/-- The spec that the update writes differs from the old one in phases alone exactly when the
old one is plain. -/
theorem rephase_frame_iff (sdk : Sdk Calendar) (utcTs : Nat) (spec : ScheduleSpec Calendar) :
    (∃ spec', rephase sdk utcTs (some spec) = .ok spec' ∧
      spec'.withoutPhases = spec.withoutPhases) ↔ spec.Plain := by
  constructor
  · rintro ⟨_, hok, hframe⟩
    obtain ⟨st, et, hst, het, rfl⟩ := rephase_some_eq_ok_iff.1 hok
    simp only [BuiltSpec.toProto, ScheduleSpec.withoutPhases, ScheduleSpec.mk.injEq,
      List.map_map, Function.comp_def] at hframe
    obtain ⟨hinterval, hcal, hexclude, hjitter, hstart, hend, -⟩ := hframe
    exact {
      calendar := hcal.symm
      excludeCalendar := hexclude.symm
      interval := (intervals_kept_iff utcTs spec.interval).1 hinterval
      jitter := (jitter_kept_iff spec.jitter).1 hjitter
      startTime := (time_kept_iff spec.startTime).1 ⟨st, hst, hstart⟩
      endTime := (time_kept_iff spec.endTime).1 ⟨et, het, hend⟩ }
  · intro h
    obtain ⟨st, hst, hstart⟩ := (time_kept_iff spec.startTime).2 h.startTime
    obtain ⟨et, het, hend⟩ := (time_kept_iff spec.endTime).2 h.endTime
    refine ⟨_, rephase_some_eq_ok_iff.2 ⟨st, et, hst, het, rfl⟩, ?_⟩
    simp only [BuiltSpec.toProto, ScheduleSpec.withoutPhases, ScheduleSpec.mk.injEq,
      List.map_map, Function.comp_def]
    exact ⟨(intervals_kept_iff utcTs spec.interval).2 h.interval, h.calendar.symm,
      h.excludeCalendar.symm, (jitter_kept_iff spec.jitter).2 h.jitter, hstart, hend, trivial⟩

theorem updateScheduleWindows_eq {cluster : Cluster Calendar}
    (hclient : cluster.clientFor input.namespace = .ok ())
    (htz : tzdb input.timezone = some tz)
    (hndt : andHmsOpt input.window.date input.window.hour input.window.minute = some ndt)
    (hdesc : cluster.describe ⟨input.namespace, input.scheduleId⟩ = .ok desc)
    (haccept : ∀ spec, cluster.accept ⟨input.namespace, input.scheduleId⟩ spec = .ok ()) :
    updateScheduleWindows sdk cluster tzdb input =
      (rephase sdk (utcTs tz ndt) desc.spec).map fun spec => (.updated, some spec) := by
  simp only [updateScheduleWindows, hclient, htz, hndt, hdesc, haccept, Option.elim_some, bind,
    Except.bind, Except.map]

theorem firstIntervalSecs_pos_iff {spec : ScheduleSpec Calendar} :
    (∃ secs, firstIntervalSecs (some spec) = some secs ∧ 0 < secs) ↔
      ∃ iv ∈ spec.interval.head?, ∃ d ∈ iv.interval, 1 ≤ d.seconds := by
  cases h : spec.interval.head? with
  | none => simp [firstIntervalSecs, h]
  | some iv => cases hd : iv.interval <;> simp [firstIntervalSecs, h, hd]; omega

/-- Discovery lets a schedule through by its first interval, whatever else its spec holds; the
update then keeps all but the phases exactly when the spec is plain. -/
theorem updateScheduleWindows_frame_iff (sdk : Sdk Calendar) (cluster : Cluster Calendar)
    (tzdb : String → Option Tz) (input : UpdateWindowsInput) (tz : Tz) (ndt : Int)
    (desc : ScheduleDescription Calendar) (spec : ScheduleSpec Calendar)
    (hclient : cluster.clientFor input.namespace = .ok ())
    (htz : tzdb input.timezone = some tz)
    (hndt : andHmsOpt input.window.date input.window.hour input.window.minute = some ndt)
    (hdesc : cluster.describe ⟨input.namespace, input.scheduleId⟩ = .ok desc)
    (haccept : ∀ spec, cluster.accept ⟨input.namespace, input.scheduleId⟩ spec = .ok ())
    (hspec : desc.spec = some spec) :
    ((∃ spec', updateScheduleWindows sdk cluster tzdb input = .ok (.updated, some spec') ∧
      spec'.withoutPhases = spec.withoutPhases) ↔ spec.Plain) ∧
    ∀ nowSecs horizonSecs,
      (∃ found, probeSchedule nowSecs horizonSecs (.ok desc) = .ok found) ↔
        (∃ iv ∈ spec.interval.head?, ∃ d ∈ iv.interval, 1 ≤ d.seconds) ∧
        (lastFireSecs desc.recentActions = none →
          ∀ nf ∈ nextFireSecs desc.futureActionTimes, nf < horizonSecs) := by
  constructor
  · rw [updateScheduleWindows_eq hclient htz hndt hdesc haccept, hspec,
      ← rephase_frame_iff sdk (utcTs tz ndt) spec]
    apply exists_congr
    intro spec'
    apply and_congr_left'
    cases rephase sdk (utcTs tz ndt) (some spec) <;> simp [Except.map]
  · intro nowSecs horizonSecs
    rw [← firstIntervalSecs_pos_iff, ← hspec]
    constructor
    · rintro ⟨⟨secs, lastFire⟩, h⟩
      obtain ⟨hsecs, hpos, -, hnext⟩ := (probeSchedule_ok_iff nowSecs horizonSecs desc).1 h
      exact ⟨⟨secs, hsecs, hpos⟩, hnext⟩
    · rintro ⟨⟨secs, hsecs, hpos⟩, hnext⟩
      exact ⟨_, (probeSchedule_ok_iff nowSecs horizonSecs desc).2 ⟨hsecs, hpos, rfl, hnext⟩⟩

section Sample

def serving (desc : ScheduleDescription Calendar) : Cluster Calendar :=
  ⟨fun _ => .ok (), fun _ => .ok desc, fun _ _ => .ok ()⟩

def nightly : UpdateWindowsInput := ⟨"default", "backup", ⟨19724, 2, 0⟩, "UTC", 86400⟩

def mixedSpec : ScheduleDescription String where
  recentActions := [some 1704074400000000000]
  futureActionTimes := []
  spec := some ⟨[⟨some ⟨86400, 0⟩, some ⟨7200, 0⟩⟩], ["0 12 * * MON"], [], none, none, none, ""⟩

theorem updateScheduleWindows_drops_calendar :
    (∃ found, probeSchedule 1704139200 1704326400 (.ok mixedSpec) = .ok found) ∧
    ∃ spec spec', mixedSpec.spec = some spec ∧
      updateScheduleWindows (.plain String) (serving mixedSpec)
        (fun _ => some (WallClock.Zone.fixed 0)) nightly = .ok (.updated, some spec') ∧
      spec.calendar = ["0 12 * * MON"] ∧ spec'.calendar = [] ∧
      spec'.withoutPhases ≠ spec.withoutPhases := by
  refine ⟨⟨_, rfl⟩, _, _, rfl, rfl, rfl, rfl, ?_⟩
  intro h
  exact absurd (congrArg ScheduleSpec.calendar h) (by decide)

def plainSpec : ScheduleDescription String where
  recentActions := [some 1704074400000000000]
  futureActionTimes := []
  spec := some ⟨[⟨some ⟨86400, 0⟩, some ⟨7200, 0⟩⟩, ⟨some ⟨3600, 0⟩, none⟩], [], [],
    some ⟨30, 0⟩, some ⟨1704067200, 500000000⟩, none, "Europe/London"⟩

theorem updateScheduleWindows_frame_iff_plain :
    ∃ spec spec', plainSpec.spec = some spec ∧
      updateScheduleWindows (.plain String) (serving plainSpec)
        (fun _ => some (WallClock.Zone.fixed 0)) nightly = .ok (.updated, some spec') ∧
      spec'.withoutPhases = spec.withoutPhases := by
  obtain ⟨h, -⟩ := updateScheduleWindows_frame_iff (.plain String) (serving plainSpec)
    (fun _ => some (WallClock.Zone.fixed 0)) nightly (WallClock.Zone.fixed 0) 1704160800 plainSpec
    _ rfl rfl rfl rfl (fun _ => rfl) rfl
  obtain ⟨spec', hok, hframe⟩ := h.2 {
    calendar := rfl
    excludeCalendar := rfl
    interval := by simp [ProtoDuration.WholeSecs]
    jitter := by simp [ProtoDuration.WholeSecs]
    startTime := by simp [ProtoTimestamp.SinceEpoch]
    endTime := by simp }
  exact ⟨_, spec', rfl, hok, hframe⟩

end Sample

end Gridshift
