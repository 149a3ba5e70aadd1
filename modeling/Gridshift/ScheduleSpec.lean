import Gridshift.Provider
import Gridshift.IntervalGrid

namespace Gridshift
open IntervalGrid
set_option autoImplicit true

structure ProtoDuration where
  seconds : Int
  nanos : Int
deriving DecidableEq, Repr

structure ProtoTimestamp where
  seconds : Int
  nanos : Int
deriving DecidableEq, Repr

structure IntervalSpec where
  interval : Option ProtoDuration
  phase : Option ProtoDuration
deriving DecidableEq, Repr

structure ScheduleSpec (Calendar : Type) where
  interval : List IntervalSpec
  calendar : List Calendar
  excludeCalendar : List Calendar
  jitter : Option ProtoDuration
  startTime : Option ProtoTimestamp
  endTime : Option ProtoTimestamp
  timezoneName : String
deriving DecidableEq, Repr

abbrev SystemTime := Int

def ofSecs (secs : Nat) : ProtoDuration := ⟨secs, 0⟩

def ofSystemTime (t : SystemTime) : ProtoTimestamp := ⟨t / 10 ^ 9, t % 10 ^ 9⟩

/-- An interval of the SDK's builder, in whole seconds. -/
structure ScheduleIntervalSpec where
  every : Nat
  phase : Option Nat
deriving DecidableEq, Repr

structure BuiltSpec (Calendar : Type) where
  intervals : List ScheduleIntervalSpec := []
  calendars : List Calendar := []
  excludeCalendars : List Calendar := []
  jitter : Option Nat := none
  startTime : Option SystemTime := none
  endTime : Option SystemTime := none
  timezoneName : String := ""

def BuiltSpec.toProto (s : BuiltSpec Calendar) : ScheduleSpec Calendar where
  interval := s.intervals.map fun iv => ⟨some (ofSecs iv.every), iv.phase.map ofSecs⟩
  calendar := s.calendars
  excludeCalendar := s.excludeCalendars
  jitter := s.jitter.map ofSecs
  startTime := s.startTime.map ofSystemTime
  endTime := s.endTime.map ofSystemTime
  timezoneName := s.timezoneName

/-- The SDK's `set_spec`: it replaces the whole spec by the one it is given. -/
structure Sdk (Calendar : Type) where
  setSpec : BuiltSpec Calendar → ScheduleSpec Calendar
  replaces : ∀ s, setSpec s = s.toProto

def Sdk.plain (Calendar : Type) : Sdk Calendar := ⟨BuiltSpec.toProto, fun _ => rfl⟩

inductive Code where
  | invalidArgument
  | notFound
  | permissionDenied
  | other
deriving DecidableEq, Repr

inductive ScheduleError where
  | rpc (code : Code) (message : String)
  | other (message : String)
deriving DecidableEq, Repr

def ScheduleError.message : ScheduleError → String
  | .rpc _ message => message
  | .other message => message

structure ScheduleDescription (Calendar : Type) where
  recentActions : List (Option SystemTime)
  futureActionTimes : List SystemTime
  spec : Option (ScheduleSpec Calendar)

/-- The answers of the Temporal cluster to the calls about one schedule. -/
structure Cluster (Calendar : Type) where
  clientFor : String → Except String Unit
  describe : ScheduleRef → Except ScheduleError (ScheduleDescription Calendar)
  accept : ScheduleRef → ScheduleSpec Calendar → Except ScheduleError Unit

/-- Temporal fires an interval at every `epoch + n * every + phase`. -/
def IntervalSpec.FiresAt (iv : IntervalSpec) (t : Int) : Prop :=
  ∃ every ∈ iv.interval, OnGrid every.seconds ((iv.phase.map ProtoDuration.seconds).getD 0) t

def ScheduleSpec.FiresAt (spec : ScheduleSpec Calendar) (t : Int) : Prop :=
  ∃ iv ∈ spec.interval, iv.FiresAt t

def ScheduleSpec.withoutPhases (spec : ScheduleSpec Calendar) : ScheduleSpec Calendar :=
  { spec with interval := spec.interval.map fun iv => { iv with phase := none } }

end Gridshift
