import Gridshift.IntervalGrid

namespace PeriodicTimer
open IntervalGrid
set_option autoImplicit true

/-- A timer that goes off at every instant of a periodic grid; the latest firing comes first. -/
@[ext] structure Timer where
  clock : Int
  phase : Int
  firings : List Int
deriving DecidableEq, Repr

def Timer.next (every : Int) (m : Timer) : Int := nextAfter every m.phase m.clock

/-- A second passes, and the timer goes off if that brings it to an instant of its grid. -/
def Timer.tick (every : Int) (m : Timer) : Timer where
  clock := m.clock + 1
  phase := m.phase
  firings := if OnGrid every m.phase (m.clock + 1) then (m.clock + 1) :: m.firings else m.firings

def Timer.rephase (u : Int) (m : Timer) : Timer := { m with phase := u }

def Timer.wait (every : Int) (n : Nat) (m : Timer) : Timer := (Timer.tick every)^[n] m

@[simp] theorem Timer.clock_tick (every : Int) (m : Timer) :
    (m.tick every).clock = m.clock + 1 := rfl

@[simp] theorem Timer.phase_tick (every : Int) (m : Timer) : (m.tick every).phase = m.phase := rfl

@[simp] theorem Timer.clock_rephase (u : Int) (m : Timer) : (m.rephase u).clock = m.clock := rfl

@[simp] theorem Timer.firings_rephase (u : Int) (m : Timer) :
    (m.rephase u).firings = m.firings := rfl

@[simp] theorem Timer.next_rephase (every u : Int) (m : Timer) :
    (m.rephase u).next every = nextAfter every u m.clock := rfl

theorem Timer.clock_lt_next (he : 0 < every) (m : Timer) : m.clock < m.next every :=
  lt_nextAfter he m.phase m.clock

/-- A tick either reaches the next firing or leaves it where it was. -/
theorem Timer.tick_cases (he : 0 < every) (m : Timer) :
    (m.clock + 1 = m.next every ∧ (m.tick every).firings = m.next every :: m.firings ∧
      (m.tick every).next every = m.next every + every) ∨
    (m.clock + 1 < m.next every ∧ (m.tick every).firings = m.firings ∧
      (m.tick every).next every = m.next every) := by
  by_cases hg : OnGrid every m.phase (m.clock + 1)
  · left
    have hnext : m.next every = m.clock + 1 := nextAfter_eq_succ he hg
    refine ⟨hnext.symm, ?_, ?_⟩
    · rw [tick, if_pos hg, hnext]
    · rw [hnext]
      exact hg.nextAfter_self he
  · right
    have hlt := m.clock_lt_next he
    have hne : m.next every ≠ m.clock + 1 := fun h => hg (h ▸ onGrid_nextAfter _ _ _)
    refine ⟨by omega, ?_, nextAfter_succ he hg⟩
    rw [tick, if_neg hg]

theorem Timer.wait_succ (every : Int) (n : Nat) (m : Timer) :
    m.wait every (n + 1) = (m.wait every n).tick every :=
  Function.iterate_succ_apply' _ _ _

theorem Timer.wait_add (every : Int) (n n' : Nat) (m : Timer) :
    m.wait every (n' + n) = (m.wait every n).wait every n' :=
  Function.iterate_add_apply _ _ _ _

@[simp] theorem Timer.clock_wait (every : Int) (n : Nat) (m : Timer) :
    (m.wait every n).clock = m.clock + n := by
  induction n with
  | zero => simp [wait]
  | succ n ih =>
    rw [wait_succ, clock_tick, ih]
    push_cast
    ring

theorem Timer.wait_of_lt (he : 0 < every) (m : Timer) (h : m.clock + (n : Nat) < m.next every) :
    m.wait every n = { m with clock := m.clock + n } := by
  induction n with
  | zero => simp [wait]
  | succ n ih =>
    push_cast at h
    have hw := ih (by omega)
    have hnext : (m.wait every n).next every = m.next every := by
      rw [hw]
      exact nextAfter_of_lt he (show m.clock ≤ m.clock + n by omega)
        (show m.clock + n < m.next every by omega)
    rw [wait_succ]
    rcases (m.wait every n).tick_cases he with ⟨hclock, -, -⟩ | ⟨-, hfirings, -⟩
    · rw [hnext, hw] at hclock
      simp only at hclock
      omega
    · ext1
      · simp only [clock_tick, hw, Nat.cast_succ]
        omega
      · simp only [phase_tick, hw]
      · rw [hfirings, hw]

theorem Timer.wait_of_eq (he : 0 < every) (m : Timer)
    (h : m.clock + (n : Nat) = m.next every) :
    m.wait every n = ⟨m.next every, m.phase, m.next every :: m.firings⟩ := by
  have hlt := m.clock_lt_next he
  obtain ⟨n, rfl⟩ : ∃ k, n = k + 1 := ⟨n - 1, by omega⟩
  push_cast at h
  have hw := m.wait_of_lt he (show m.clock + n < m.next every by omega)
  have hg : OnGrid every m.phase (m.clock + n + 1) := by
    rw [show m.clock + n + 1 = m.next every by omega]
    exact onGrid_nextAfter _ _ _
  rw [wait_succ, hw, tick, if_pos hg, show m.clock + n + 1 = m.next every by omega]

/-- A wait past the next firing that ends before the one after it records just that one. -/
theorem Timer.wait_of_ge (he : 0 < every) (m : Timer) (hle : m.next every ≤ m.clock + (n : Nat))
    (hlt : m.clock + n < m.next every + every) :
    m.wait every n = ⟨m.clock + n, m.phase, m.next every :: m.firings⟩ := by
  have hnext := m.clock_lt_next he
  obtain ⟨k, hk⟩ : ∃ k : Nat, m.clock + k = m.next every :=
    ⟨(m.next every - m.clock).toNat, by omega⟩
  obtain ⟨l, rfl⟩ : ∃ l, n = l + k := ⟨n - k, by omega⟩
  push_cast at hlt ⊢
  have hagain : (⟨m.next every, m.phase, m.next every :: m.firings⟩ : Timer).next every =
      m.next every + every := (onGrid_nextAfter _ _ _).nextAfter_self he
  rw [wait_add, m.wait_of_eq he hk, wait_of_lt he _ (by rw [hagain]; simp only; omega)]
  ext1
  · simp only
    omega
  · rfl
  · rfl

/-- Firings a period apart, and the next one due a period after the latest. -/
structure Timer.OnTime (every : Int) (m : Timer) : Prop where
  spaced : m.firings.IsChain fun later earlier => earlier + every ≤ later
  due : ∀ f ∈ m.firings.head?, f + every ≤ m.next every

theorem Timer.OnTime.tick (he : 0 < every) (h : Timer.OnTime every m) :
    Timer.OnTime every (m.tick every) := by
  rcases m.tick_cases he with ⟨-, hfirings, hnext⟩ | ⟨-, hfirings, hnext⟩
  · refine ⟨?_, ?_⟩
    · rw [hfirings, List.isChain_cons]
      exact ⟨h.due, h.spaced⟩
    · rw [hfirings, hnext]
      rintro _ ⟨⟩
      exact le_rfl
  · refine ⟨?_, ?_⟩
    · rw [hfirings]
      exact h.spaced
    · rw [hfirings, hnext]
      exact h.due

/-- The grid may move when the timer has not gone off since the last instant of the new grid. -/
theorem Timer.OnTime.rephase (h : Timer.OnTime every m)
    (hu : ∀ f ∈ m.firings.head?, f ≤ lastUpTo every u m.clock) :
    Timer.OnTime every (m.rephase u) := by
  refine ⟨h.spaced, fun f hf => ?_⟩
  have hle := hu f hf
  rw [next_rephase, ← lastUpTo_add_every]
  omega

end PeriodicTimer
