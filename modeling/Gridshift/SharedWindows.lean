import Mathlib

namespace SharedWindows
set_option autoImplicit true

variable {ι κ : Type*} [Fintype ι] [Fintype κ]

/-- Those who start together share a window, as long as the longest of them. -/
def span (start length : ι → ℕ) (t : ℕ) : ℕ :=
  (Finset.univ.filter fun j => start j = t).sup length

theorem span_le_iff {start length : ι → ℕ} :
    span start length t ≤ n ↔ ∀ j, start j = t → length j ≤ n := by
  simp only [span, Finset.sup_le_iff, Finset.mem_filter, Finset.mem_univ, true_and]

theorem lt_span_iff {start length : ι → ℕ} :
    n < span start length t ↔ ∃ j, start j = t ∧ n < length j := by
  simp only [span, Finset.lt_sup_iff, Finset.mem_filter, Finset.mem_univ, true_and]

theorem le_span (start length : ι → ℕ) (j : ι) : length j ≤ span start length (start j) :=
  span_le_iff.1 (le_refl _) j rfl

theorem span_eq_zero {start length : ι → ℕ} (h : ∀ j, start j ≠ t) : span start length t = 0 :=
  Nat.le_zero.1 (span_le_iff.2 fun j hj => absurd hj (h j))

theorem span_comp_le (start length : ι → ℕ) (f : κ → ι) (t : ℕ) :
    span (start ∘ f) (length ∘ f) t ≤ span start length t :=
  span_le_iff.2 fun j hj => hj ▸ le_span start length (f j)

theorem span_elim_le (start length : ι → ℕ) (start' length' : κ → ℕ) (t : ℕ) :
    span (Sum.elim start start') (Sum.elim length length') t ≤
      max (span start length t) (span start' length' t) := by
  apply span_le_iff.2
  intro j hj
  cases j with
  | inl j =>
    subst hj
    exact le_max_of_le_left (le_span start length j)
  | inr j =>
    subst hj
    exact le_max_of_le_right (le_span start' length' j)

theorem start_mem_image (start : ι → ℕ) (j : ι) : start j ∈ Finset.univ.image start :=
  Finset.mem_image_of_mem start (Finset.mem_univ j)

section Charge
variable {K : Type*} [AddCommMonoid K]

/-- Each window in use is charged once, whoever shares it. -/
def charge (price : ℕ → K) (start length : ι → ℕ) : K :=
  ∑ t ∈ Finset.univ.image start, ∑ i ∈ Finset.range (span start length t), price (t + i)

theorem charge_eq_sum (price : ℕ → K) {start length : ι → ℕ} {T : Finset ℕ}
    (hT : ∀ j, start j ∈ T) :
    charge price start length =
      ∑ t ∈ T, ∑ i ∈ Finset.range (span start length t), price (t + i) := by
  apply Finset.sum_subset
  · intro t ht
    obtain ⟨j, -, rfl⟩ := Finset.mem_image.1 ht
    exact hT j
  · intro t _ ht
    have hzero : span start length t = 0 := by
      apply span_eq_zero
      rintro j rfl
      exact ht (start_mem_image start j)
    rw [hzero, Finset.sum_range_zero]

/-- Only the prices within the windows matter. -/
theorem charge_congr {price price' : ℕ → K} {start length : ι → ℕ}
    (h : ∀ j, ∀ i < length j, price (start j + i) = price' (start j + i)) :
    charge price start length = charge price' start length := by
  apply Finset.sum_congr rfl
  intro t _
  apply Finset.sum_congr rfl
  intro i hi
  obtain ⟨j, rfl, hj⟩ := lt_span_iff.1 (Finset.mem_range.1 hi)
  exact h j i hj

section Order
variable [PartialOrder K] [IsOrderedAddMonoid K] {price : ℕ → K} (hprice : ∀ t, 0 ≤ price t)
include hprice

theorem window_nonneg (t n : ℕ) : 0 ≤ ∑ i ∈ Finset.range n, price (t + i) :=
  Finset.sum_nonneg fun i _ => hprice (t + i)

theorem window_mono (t : ℕ) (h : m ≤ n) :
    ∑ i ∈ Finset.range m, price (t + i) ≤ ∑ i ∈ Finset.range n, price (t + i) :=
  Finset.sum_le_sum_of_subset_of_nonneg (Finset.range_mono h) fun i _ _ => hprice (t + i)

theorem window_max_le (t m n : ℕ) :
    ∑ i ∈ Finset.range (max m n), price (t + i) ≤
      ∑ i ∈ Finset.range m, price (t + i) + ∑ i ∈ Finset.range n, price (t + i) := by
  rcases max_choice m n with h | h
  · rw [h]
    exact le_add_of_nonneg_right (window_nonneg hprice t n)
  · rw [h]
    exact le_add_of_nonneg_left (window_nonneg hprice t m)

theorem charge_mono {start length : ι → ℕ} {start' length' : κ → ℕ}
    (h : ∀ t, span start length t ≤ span start' length' t) :
    charge price start length ≤ charge price start' length' := by
  have hT (j : ι) : start j ∈ Finset.univ.image start ∪ Finset.univ.image start' :=
    Finset.mem_union_left _ (start_mem_image start j)
  have hT' (j : κ) : start' j ∈ Finset.univ.image start ∪ Finset.univ.image start' :=
    Finset.mem_union_right _ (start_mem_image start' j)
  rw [charge_eq_sum price hT, charge_eq_sum price hT']
  exact Finset.sum_le_sum fun t _ => window_mono hprice t (h t)

/-- Some of them, or several in the place of one, are charged no more than all. -/
theorem charge_comp_le (start length : ι → ℕ) (f : κ → ι) :
    charge price (start ∘ f) (length ∘ f) ≤ charge price start length :=
  charge_mono hprice (span_comp_le start length f)

/-- Two groups together are charged no more than each on its own. -/
theorem charge_elim_le (start length : ι → ℕ) (start' length' : κ → ℕ) :
    charge price (Sum.elim start start') (Sum.elim length length') ≤
      charge price start length + charge price start' length' := by
  have hT (j : ι) : start j ∈ Finset.univ.image start ∪ Finset.univ.image start' :=
    Finset.mem_union_left _ (start_mem_image start j)
  have hT' (j : κ) : start' j ∈ Finset.univ.image start ∪ Finset.univ.image start' :=
    Finset.mem_union_right _ (start_mem_image start' j)
  rw [charge_eq_sum price hT, charge_eq_sum price hT', ← Finset.sum_add_distrib,
    charge_eq_sum price (Sum.rec hT hT')]
  apply Finset.sum_le_sum
  intro t _
  exact (window_mono hprice t (span_elim_le start length start' length' t)).trans
    (window_max_le hprice t _ _)

end Order

end Charge

end SharedWindows
