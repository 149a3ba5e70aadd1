import Gridshift.Types
import Gridshift.BinaryProgram
import Gridshift.Sorting

namespace Gridshift
open BinaryProgram Sorting
set_option autoImplicit true

def slotEpoch (w : PricedWindow) (tz : Tz) : Int :=
  match andHmsOpt w.date w.hour w.minute with
  | none => i64Min
  | some ndt => (tz.earliest ndt).getD i64Min

/-- The least instant at which the guard lets a schedule fire again. -/
def fireFloor (lastFire : Int) (intervalSecs : Nat) : Int :=
  toI64 (lastFire + toI64 intervalSecs)

def earliestEligibleIndex (priced : List PricedWindow) (lastFireSecs : Option Int)
    (intervalSecs : Nat) (tz : Tz) : Nat :=
  match lastFireSecs with
  | none => 0
  | some lastFire =>
    (priced.findIdx? fun w => fireFloor lastFire intervalSecs ≤ slotEpoch w tz).getD priced.length

/-- A decision variable of the plan: job `j` starts at slot `t`, or the window at slot `t`
extends at least `d` slots. -/
inductive Var where
  | x (j t : Nat)
  | w (t d : Nat)
deriving DecidableEq, Repr

structure Libraries where
  solve : Program Var Rat → Except String (Var → F64)
  formatDuration : Nat → String

def horizonSkipReason (lib : Libraries) (lastFireSecs : Option Int) (intervalSecs : Nat)
    (nowSecs : Int) : String :=
  match lastFireSecs with
  | some lastFire =>
    let remaining := (max (toI64 (fireFloor lastFire intervalSecs - nowSecs)) 0).toNat
    s!"next run in {lib.formatDuration remaining}, outside the price horizon"
  | none => "no eligible price slot in the price horizon"

structure Job where
  «namespace» : String
  scheduleId : String
  intervalSecs : Nat
  minStart : Nat
  durationSlots : Nat
deriving DecidableEq, Repr

def Job.ref (job : Job) : ScheduleRef := ⟨job.namespace, job.scheduleId⟩

/-- The whole slots a job takes, at least one. -/
def durationSlots (dur slotDurationMins : Nat) : Nat := max (dur ⌈/⌉ slotDurationMins) 1

/-- One pass of the classifying loop; `none` is the panic on a slot length of zero. -/
def classify (lib : Libraries) (scheduleDurations : ScheduleRef → Option Nat)
    (priced : List PricedWindow) (tz : Tz) (nowSecs : Int) (slotDurationMins : Nat)
    (s : ScheduleInfo) : Option (Job ⊕ SkippedSchedule) :=
  let minStart := earliestEligibleIndex priced s.lastFireSecs s.intervalSecs tz
  if priced.length ≤ minStart then
    some (.inr ⟨s.namespace, s.scheduleId,
      horizonSkipReason lib s.lastFireSecs s.intervalSecs nowSecs⟩)
  else if slotDurationMins = 0 then none
  else
    let dur := (scheduleDurations s.ref).getD slotDurationMins
    let slots := durationSlots dur slotDurationMins
    if priced.length < minStart + slots then
      some (.inr ⟨s.namespace, s.scheduleId, "job duration extends past the price horizon"⟩)
    else
      some (.inl ⟨s.namespace, s.scheduleId, s.intervalSecs, minStart, slots⟩)

section Model
variable (jobs : List Job) (nSlots : Nat) (prices : List Rat)

/-- Absent where `t` is before the job's first start or the job overruns the pool. -/
def xVar (j : Fin jobs.length) (t : Nat) : Option Var :=
  if (jobs.get j).minStart ≤ t ∧ t + (jobs.get j).durationSlots ≤ nSlots then some (.x j t) else none

/-- Absent where the window overruns the pool. -/
def wVar (t d : Nat) : Option Var := if t + d ≤ nSlots then some (.w t d) else none

def maxDur : Nat := (jobs.map Job.durationSlots).max?.getD 1

def planVars : List Var :=
  (List.finRange jobs.length).flatMap (fun j =>
    (List.range nSlots).filterMap fun t => xVar jobs nSlots j t) ++
  (List.range nSlots).flatMap fun t =>
    (List.range' 1 (maxDur jobs)).filterMap fun d => wVar nSlots t d

def planObjective : Expression Var Rat :=
  (List.range nSlots).flatMap fun t =>
    (List.range' 1 (maxDur jobs)).filterMap fun d =>
      (wVar nSlots t d).map fun wv => (wv, prices.getD (t + d - 1) 0)

/-- Constraint (1): each job is assigned to exactly one slot. -/
def onceConstraints : List (Constraint Var Rat) :=
  (List.finRange jobs.length).map fun j =>
    .eq (.ofOptions ((List.range nSlots).map fun t => xVar jobs nSlots j t)) 1

/-- Constraint (2): a window extends far enough to cover each assigned job. -/
def coverConstraints : List (Constraint Var Rat) :=
  (List.finRange jobs.length).flatMap fun j =>
    (List.range nSlots).flatMap fun t =>
      (xVar jobs nSlots j t).toList.flatMap fun xjt =>
        (List.range' 1 (jobs.get j).durationSlots).filterMap fun d =>
          (wVar nSlots t d).map fun wtd => .le [(xjt, 1)] [(wtd, 1)]

/-- Constraint (3): no phantom window at a slot without a covering job. -/
def phantomConstraints : List (Constraint Var Rat) :=
  (List.range nSlots).flatMap fun t =>
    (List.range' 1 (maxDur jobs)).filterMap fun d =>
      (wVar nSlots t d).map fun wtd => .le [(wtd, 1)]
        (.ofOptions (((List.finRange jobs.length).filter fun j => d ≤ (jobs.get j).durationSlots).map
          fun j => xVar jobs nSlots j t))

def planModel : Program Var Rat where
  vars := planVars jobs nSlots
  objective := planObjective jobs nSlots prices
  constraints :=
    onceConstraints jobs nSlots ++ coverConstraints jobs nSlots ++ phantomConstraints jobs nSlots

end Model

/-- The first slot whose start variable the solver put above a half. -/
def pickSlot (jobs : List Job) (nSlots : Nat) (solution : Var → F64) (j : Fin jobs.length) :
    Option (Fin nSlots) :=
  (List.finRange nSlots).find? fun t =>
    match xVar jobs nSlots j t with
    | none => false
    | some v => (solution v).gt (1 / 2)

def extract (jobs : List Job) (priced : List PricedWindow) (solution : Var → F64)
    (j : Fin jobs.length) : ScheduleAssignment ⊕ SkippedSchedule :=
  match pickSlot jobs priced.length solution j with
  | some t => .inl {
      scheduleRef := (jobs.get j).ref
      window := (priced.get t).toChosen
      intervalSecs := (jobs.get j).intervalSecs }
  | none => .inr ⟨(jobs.get j).namespace, (jobs.get j).scheduleId, "ILP assigned no slot"⟩

/-- Phases 2 and 3 of the plan: build the program, solve it and read the slots off. -/
def assignJobs (lib : Libraries) (jobs : List Job) (priced : List PricedWindow) :
    PlanWindowsResult :=
  match lib.solve (planModel jobs priced.length (priced.map PricedWindow.pricePPerKwh)) with
  | .error e => ⟨[], jobs.map fun job =>
      ⟨job.namespace, job.scheduleId, s!"ILP solver failed: {e}"⟩⟩
  | .ok solution =>
    let outcomes := (List.finRange jobs.length).map (extract jobs priced solution)
    ⟨lefts outcomes, rights outcomes⟩

def planAssignments (lib : Libraries) (schedules : List ScheduleInfo)
    (scheduleDurations : ScheduleRef → Option Nat) (priced : List PricedWindow) (tz : Tz)
    (nowSecs : Int) (slotDurationMins : Nat) : Option PlanWindowsResult := do
  let classified ← schedules.mapM
    (classify lib scheduleDurations priced tz nowSecs slotDurationMins)
  let jobs := lefts classified
  let skipped := rights classified
  if jobs.isEmpty then
    return ⟨[], skipped⟩
  let solved := assignJobs lib jobs priced
  return ⟨solved.assignments, skipped ++ solved.skipped⟩

end Gridshift
