import Gridshift.ScheduleSpec

namespace Gridshift
set_option autoImplicit true

def epochSecs (t : SystemTime) : Option Int := if 0 ≤ t then some (t / 10 ^ 9) else none

def lastFireSecs (recentActions : List (Option SystemTime)) : Option Int :=
  ((recentActions.filterMap id).filterMap epochSecs).max?

def nextFireSecs (futureActionTimes : List SystemTime) : Option Int :=
  (futureActionTimes.filterMap epochSecs).head?

def saturatingSub (a b : Int) : Int := max (-2 ^ 63) (min (a - b) (2 ^ 63 - 1))

def firstIntervalSecs (spec : Option (ScheduleSpec Calendar)) : Option Nat :=
  (spec.bind fun s => s.interval.head?).map fun iv =>
    (iv.interval.map fun d => (max d.seconds 0).toNat).getD 0

/-- Discovery's look at one schedule: its interval and last firing, or why it is skipped. -/
def probeSchedule (nowSecs horizonSecs : Int)
    (described : Except String (ScheduleDescription Calendar)) :
    Except String (Nat × Option Int) :=
  match described with
  | .error e => .error s!"describe failed: {e}"
  | .ok desc =>
    let lastFire := lastFireSecs desc.recentActions
    let nextFire := nextFireSecs desc.futureActionTimes
    match firstIntervalSecs desc.spec with
    | none => .error "not an interval schedule"
    | some secs =>
      if secs = 0 then .error "interval is zero"
      else if lastFire.isNone ∧ nextFire.any fun nf => horizonSecs ≤ nf then
        let aheadDays := (saturatingSub (nextFire.getD 0) nowSecs).tdiv secsPerDay
        .error s!"next run in {aheadDays}d, outside the price horizon"
      else .ok (secs, lastFire)

theorem mem_lastFireSecs_iff :
    f ∈ lastFireSecs actions ↔
      (∃ t : Int, some t ∈ actions ∧ 0 ≤ t ∧ t / 10 ^ 9 = f) ∧
        ∀ t : Int, some t ∈ actions → 0 ≤ t → t / 10 ^ 9 ≤ f := by
  simp only [lastFireSecs, Option.mem_def, List.max?_eq_some_iff, List.mem_filterMap, id_eq,
    exists_eq_right, epochSecs, Option.ite_none_right_eq_some, Option.some.injEq]
  constructor
  · rintro ⟨h, hmax⟩
    exact ⟨h, fun t ht h0 => hmax _ ⟨t, ht, h0, rfl⟩⟩
  · rintro ⟨h, hmax⟩
    refine ⟨h, ?_⟩
    rintro _ ⟨t, ht, h0, rfl⟩
    exact hmax t ht h0

theorem probeSchedule_ok_iff (nowSecs horizonSecs : Int) (desc : ScheduleDescription Calendar) :
    probeSchedule nowSecs horizonSecs (.ok desc) = .ok (secs, lastFire) ↔
      firstIntervalSecs desc.spec = some secs ∧ 0 < secs ∧
      lastFire = lastFireSecs desc.recentActions ∧
      (lastFireSecs desc.recentActions = none →
        ∀ nf ∈ nextFireSecs desc.futureActionTimes, nf < horizonSecs) := by
  rw [probeSchedule]
  cases hs : firstIntervalSecs desc.spec with
  | none => simp only [reduceCtorEq, false_and]
  | some n =>
    simp only [Option.some.injEq]
    by_cases hn : n = 0
    · rw [if_pos hn]
      simp only [reduceCtorEq, false_iff]
      omega
    · rw [if_neg hn]
      by_cases hh : (lastFireSecs desc.recentActions).isNone ∧
          (nextFireSecs desc.futureActionTimes).any fun nf => horizonSecs ≤ nf
      · rw [if_pos hh]
        simp only [reduceCtorEq, false_iff]
        rintro ⟨-, -, -, h⟩
        obtain ⟨nf, hnf, hle⟩ := Option.any_eq_true _ _ |>.1 hh.2
        have := h (Option.isNone_iff_eq_none.1 hh.1) nf hnf
        simp only [decide_eq_true_eq] at hle
        omega
      · rw [if_neg hh]
        simp only [Except.ok.injEq, Prod.mk.injEq]
        constructor
        · rintro ⟨rfl, rfl⟩
          refine ⟨rfl, Nat.pos_of_ne_zero hn, rfl, fun hnone nf hnf => ?_⟩
          by_contra hlt
          exact hh ⟨Option.isNone_iff_eq_none.2 hnone,
            (Option.any_eq_true _ _).2 ⟨nf, hnf, decide_eq_true (Int.not_lt.1 hlt)⟩⟩
        · rintro ⟨rfl, -, rfl, -⟩
          exact ⟨rfl, rfl⟩

end Gridshift
