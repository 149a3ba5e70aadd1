import Mathlib

namespace Threshold
set_option autoImplicit true

variable {β : Type*} [LinearOrder β]

/-- The first place at which a measure of a list reaches a bound, or its length. -/
def firstAtLeast (f : α → β) (a : β) (l : List α) : Nat := l.findIdx fun x => a ≤ f x

theorem lt_firstAtLeast_iff (f : α → β) (a : β) (l : List α) (k : Nat) :
    k < firstAtLeast f a l ↔ k < l.length ∧ ∀ i : Fin l.length, i ≤ k → f (l.get i) < a := by
  rw [firstAtLeast, List.lt_findIdx_iff]
  constructor
  · intro ⟨hk, h⟩
    exact ⟨hk, fun i hi => not_le.1 (of_decide_eq_false (h i hi))⟩
  · intro ⟨hk, h⟩
    exact ⟨hk, fun i hi => decide_eq_false (not_le.2 (h ⟨i, hi.trans_lt hk⟩ hi))⟩

theorem firstAtLeast_le_iff_exists (f : α → β) (a : β) (l : List α) (k : Fin l.length) :
    firstAtLeast f a l ≤ k ↔ ∃ i ≤ k, a ≤ f (l.get i) := by
  rw [← not_lt, lt_firstAtLeast_iff]
  simp only [k.isLt, true_and, not_forall, not_lt, exists_prop]
  rfl

/-- Along an increasing measure, the places that reach a bound are a suffix. -/
theorem firstAtLeast_le_iff_of_pairwise {f : α → β} (h : l.Pairwise fun x y => f x < f y)
    (a : β) (k : Fin l.length) : firstAtLeast f a l ≤ k ↔ a ≤ f (l.get k) := by
  rw [firstAtLeast_le_iff_exists]
  constructor
  · intro ⟨i, hik, hi⟩
    rcases hik.eq_or_lt with rfl | hlt
    · exact hi
    · exact hi.trans (List.pairwise_iff_get.1 h i k hlt).le
  · exact fun hk => ⟨k, le_rfl, hk⟩

/-- The search stops no later for one bound than for another exactly when the measure stays
below the second wherever it has not yet reached the first. -/
theorem firstAtLeast_le_iff (f : α → β) (a b : β) (l : List α) :
    firstAtLeast f a l ≤ firstAtLeast f b l ↔
      ∀ k : Fin l.length, (∀ i ≤ k, f (l.get i) < a) → f (l.get k) < b := by
  constructor
  · intro h k hk
    have hlt : (k : Nat) < firstAtLeast f a l :=
      (lt_firstAtLeast_iff f a l k).2 ⟨k.isLt, fun i hi => hk i hi⟩
    exact ((lt_firstAtLeast_iff f b l k).1 (hlt.trans_le h)).2 k le_rfl
  · intro h
    by_contra hlt
    obtain ⟨hk, ha⟩ := (lt_firstAtLeast_iff f a l _).1 (not_le.1 hlt)
    -- the place where the second search stopped is still below its own bound
    have hself : firstAtLeast f b l < firstAtLeast f b l := by
      apply (lt_firstAtLeast_iff f b l _).2
      exact ⟨hk, fun i hi => h i fun j hj => ha j (le_trans hj hi)⟩
    exact lt_irrefl _ hself

theorem firstAtLeast_mono (f : α → β) (hab : a ≤ b) (l : List α) :
    firstAtLeast f a l ≤ firstAtLeast f b l :=
  (firstAtLeast_le_iff f a b l).2 fun k h => (h k le_rfl).trans_le hab

end Threshold
