import Gridshift.WallClock

namespace Gridshift
set_option autoImplicit true

/-- An `f64`: an exact finite value, an infinity or NaN. -/
inductive F64 where
  | finite (q : Rat)
  | infinity (negative : Bool)
  | nan
deriving DecidableEq, Repr

def F64.isFinite : F64 → Bool
  | .finite _ => true
  | _ => false

/-- Comparison with a finite value; NaN is greater than nothing. -/
def F64.gt : F64 → Rat → Bool
  | .finite q, r => r < q
  | .infinity negative, _ => !negative
  | .nan, _ => false

def i64Min : Int := -2 ^ 63

/-- The value of an integer after wrapping into an `i64`. -/
def toI64 (n : Int) : Int := n.bmod (2 ^ 64)

theorem toI64_eq (h : -2 ^ 63 ≤ n) (h' : n < 2 ^ 63) : toI64 n = n :=
  Int.bmod_eq_of_le (by norm_num; omega) (by norm_num; omega)

theorem toI64_add_toI64 (a b : Int) : toI64 (a + toI64 b) = toI64 (a + b) :=
  Int.add_bmod_bmod

/-- A calendar date, counted in days from 1970-01-01; here the calendar has no end. -/
abbrev NaiveDate := Int

abbrev Tz := WallClock.Zone

def secsPerDay : Nat := 86400

/-- The reading at a whole minute of a date, where the clock face has it. -/
def andHmsOpt (date : NaiveDate) (hour minute : Nat) : Option Int :=
  if hour < 24 ∧ minute < 60 then some (date * 86400 + hour * 3600 + minute * 60) else none

def dateOf (l : Int) : NaiveDate := l / 86400
def hourOf (l : Int) : Nat := (l % 86400 / 3600).toNat
def minuteOf (l : Int) : Nat := (l % 3600 / 60).toNat

theorem hourOf_lt (l : Int) : hourOf l < 24 := by simp only [hourOf]; omega
theorem minuteOf_lt (l : Int) : minuteOf l < 60 := by simp only [minuteOf]; omega

theorem andHmsOpt_parts (l : Int) :
    andHmsOpt (dateOf l) (hourOf l) (minuteOf l) = some (l - l % 60) := by
  rw [andHmsOpt, if_pos ⟨hourOf_lt l, minuteOf_lt l⟩]
  simp only [dateOf, hourOf, minuteOf, Option.some.injEq]
  omega

def escapeDebug (c : Char) : List Char :=
  match c.toNat with
  | 0 => "\\0".toList
  | 9 => "\\t".toList
  | 10 => "\\n".toList
  | 13 => "\\r".toList
  | 34 => [Char.ofNat 92, c]
  | 92 => [Char.ofNat 92, c]
  | n =>
    if n < 32 ∨ n = 127 then "\\u\x7b".toList ++ Nat.toDigits 16 n ++ "\x7d".toList else [c]

/-- A string as its debug form prints it: in quotes and escaped. -/
def debugStr (s : String) : String :=
  String.ofList (Char.ofNat 34 :: s.toList.flatMap escapeDebug ++ [Char.ofNat 34])

inductive ProviderError where
  | notYetPublished (date : NaiveDate)
  | other (message : String)
deriving DecidableEq, Repr

structure SchedulerInput where
  query : String
  timezone : String

structure PricedWindow where
  date : NaiveDate
  hour : Nat
  minute : Nat
  pricePPerKwh : Rat
deriving DecidableEq, Repr

structure ChosenWindow where
  date : NaiveDate
  hour : Nat
  minute : Nat
deriving DecidableEq, Repr

def PricedWindow.toChosen (w : PricedWindow) : ChosenWindow := ⟨w.date, w.hour, w.minute⟩

structure ScheduleRef where
  «namespace» : String
  scheduleId : String
deriving DecidableEq, Repr

structure ScheduleInfo where
  «namespace» : String
  scheduleId : String
  intervalSecs : Nat
  lastFireSecs : Option Int
deriving DecidableEq, Repr

structure SkippedSchedule where
  «namespace» : String
  scheduleId : String
  reason : String
deriving DecidableEq, Repr

structure ScheduleUpdateSummary where
  «namespace» : String
  scheduleId : String
  windows : List ChosenWindow
deriving DecidableEq, Repr

structure SchedulerResult where
  schedulesUpdated : Nat
  updates : List ScheduleUpdateSummary
  skipped : List SkippedSchedule
deriving DecidableEq, Repr

structure FetchWindowsInput where
  date : NaiveDate
  timezone : String

structure TryFetchWindowsResult where
  windows : Option (List PricedWindow)
  message : String

structure DiscoverSchedulesInput where
  «namespace» : String
  query : String
  horizonSecs : Int

structure DiscoverSchedulesResult where
  schedules : List ScheduleInfo
  skipped : List SkippedSchedule
  slotDurationMins : Nat

structure UpdateWindowsInput where
  «namespace» : String
  scheduleId : String
  window : ChosenWindow
  timezone : String
  intervalSecs : Nat

inductive UpdateOutcome where
  | updated
  | skipped (reason : String)
deriving DecidableEq, Repr

structure MeasureDurationsInput where
  schedules : List ScheduleRef

structure PlanWindowsInput where
  schedules : List ScheduleInfo
  scheduleDurations : List (ScheduleRef × Nat)
  pricedWindows : List PricedWindow
  timezone : String
  nowSecs : Int
  slotDurationMins : Nat

structure ScheduleAssignment where
  scheduleRef : ScheduleRef
  window : ChosenWindow
  intervalSecs : Nat
deriving DecidableEq, Repr

structure PlanWindowsResult where
  assignments : List ScheduleAssignment
  skipped : List SkippedSchedule
deriving DecidableEq, Repr

def ScheduleInfo.ref (s : ScheduleInfo) : ScheduleRef := ⟨s.namespace, s.scheduleId⟩
def SkippedSchedule.ref (s : SkippedSchedule) : ScheduleRef := ⟨s.namespace, s.scheduleId⟩
def ScheduleUpdateSummary.ref (s : ScheduleUpdateSummary) : ScheduleRef :=
  ⟨s.namespace, s.scheduleId⟩

end Gridshift
