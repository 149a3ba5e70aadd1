import Mathlib

namespace NearestRank
set_option autoImplicit true

variable {α : Type*} [LinearOrder α]

def nth (l : List α) (k : Nat) : Option α := (l.insertionSort (· ≤ ·))[k]?

/-- In a sorted list the members up to a bound are the first ones. -/
theorem getElem?_le_iff {l : List α} (h : l.Pairwise (· ≤ ·)) (k : Nat) (w : α) :
    (∃ v ∈ l[k]?, v ≤ w) ↔ k < l.countP (· ≤ w) := by
  induction l generalizing k with
  | nil => simp
  | cons a l ih =>
    obtain ⟨hle, hl⟩ := List.pairwise_cons.1 h
    by_cases ha : a ≤ w
    · rw [List.countP_cons_of_pos (by simpa using ha)]
      cases k with
      | zero => simpa using ha
      | succ k => simpa using ih hl k
    · have hnone : (a :: l).countP (· ≤ w) = 0 := by
        rw [List.countP_eq_zero]
        intro v hv
        rcases List.mem_cons.1 hv with rfl | hv
        · simpa using ha
        · simpa using (not_le.1 ha).trans_le (hle v hv)
      rw [hnone]
      constructor
      · intro hex
        obtain ⟨v, hv, hvw⟩ := hex
        have hcount := List.countP_eq_zero.1 hnone v (List.mem_of_getElem? hv)
        exact absurd hvw (by simpa using hcount)
      · intro hk
        exact absurd hk (Nat.not_lt_zero k)

theorem nth_le_iff (l : List α) (k : Nat) (w : α) :
    (∃ v ∈ nth l k, v ≤ w) ↔ k < l.countP (· ≤ w) := by
  rw [← (List.perm_insertionSort (· ≤ ·) l).countP_eq]
  exact getElem?_le_iff (List.pairwise_insertionSort _ l) k w

theorem mem_of_nth {l : List α} (h : nth l k = some v) : v ∈ l :=
  (List.mem_insertionSort _).1 (List.mem_of_getElem? h)

theorem exists_nth {l : List α} (hk : k < l.length) : ∃ v, nth l k = some v := by
  rw [← List.length_insertionSort (· ≤ ·) l] at hk
  exact ⟨_, List.getElem?_eq_getElem hk⟩

/-- The member at a rank is the least with more members than the rank up to it. -/
theorem isLeast_nth {l : List α} (h : nth l k = some v) :
    IsLeast {w | w ∈ l ∧ k < l.countP (· ≤ w)} v := by
  have hle (w : α) : v ≤ w ↔ k < l.countP (· ≤ w) := by
    rw [← nth_le_iff, h]
    simp only [Option.mem_def, Option.some.injEq, exists_eq_left']
  exact ⟨⟨mem_of_nth h, (hle v).1 le_rfl⟩, fun w hw => (hle w).2 hw.2⟩

theorem nth_perm {l l' : List α} (h : l.Perm l') (k : Nat) : nth l k = nth l' k := by
  have hsorted : l.insertionSort (· ≤ ·) = l'.insertionSort (· ≤ ·) :=
    (((List.perm_insertionSort _ l).trans h).trans
      (List.perm_insertionSort _ l').symm).eq_of_pairwise'
        (List.pairwise_insertionSort _ l) (List.pairwise_insertionSort _ l')
  rw [nth, nth, hsorted]

/-- Members are at least the member at a rank as soon as they have enough members up to them. -/
theorem nth_le_nth {l l' : List α} (hcount : ∀ w, l'.countP (· ≤ w) ≤ l.countP (· ≤ w))
    (h : nth l k = some v) (h' : nth l' k = some v') : v ≤ v' := by
  have hk := (nth_le_iff l' k v').1 ⟨v', h', le_rfl⟩
  obtain ⟨u, hu, huv⟩ := (nth_le_iff l k v').2 (hk.trans_le (hcount v'))
  cases h.symm.trans hu
  exact huv

theorem countP_le_of_raise {x y : α} (h : x ≤ y) (l₁ l₂ : List α) (w : α) :
    (l₁ ++ y :: l₂).countP (· ≤ w) ≤ (l₁ ++ x :: l₂).countP (· ≤ w) := by
  have hone : (if y ≤ w then 1 else 0) ≤ (if x ≤ w then 1 else 0) := by
    by_cases hy : y ≤ w
    · rw [if_pos hy, if_pos (h.trans hy)]
    · rw [if_neg hy]
      exact Nat.zero_le _
  simp only [List.countP_append, List.countP_cons, decide_eq_true_eq]
  omega

end NearestRank
