import Mathlib

namespace BinaryProgram
set_option autoImplicit true

abbrev Expression (V K : Type*) := List (V × K)

/-- A linear constraint is an equation with a constant or an inequality of expressions. -/
inductive Constraint (V K : Type*) where
  | eq (e : Expression V K) (c : K)
  | le (lhs rhs : Expression V K)

/-- Minimise an objective over binary variables under linear constraints. -/
structure Program (V K : Type*) where
  vars : List V
  objective : Expression V K
  constraints : List (Constraint V K)

def Expression.ofOptions [One K] (l : List (Option V)) : Expression V K :=
  l.filterMap fun o => o.map fun v => (v, 1)

theorem sum_map_range [AddCommMonoid M] (f : Nat → M) (n : Nat) :
    ((List.range n).map f).sum = ∑ i ∈ Finset.range n, f i := rfl

section Evaluation
variable {V K : Type*} [Semiring K]

def Expression.eval (ρ : V → K) (e : Expression V K) : K := (e.map fun p => p.2 * ρ p.1).sum

@[simp] theorem Expression.eval_single (ρ : V → K) (v : V) (c : K) :
    Expression.eval ρ [(v, c)] = c * ρ v := by
  simp only [eval, List.map_cons, List.map_nil, List.sum_cons, List.sum_nil, add_zero]

theorem Expression.eval_append (ρ : V → K) (e e' : Expression V K) :
    Expression.eval ρ (e ++ e') = e.eval ρ + e'.eval ρ := by
  simp only [eval, List.map_append, List.sum_append]

theorem Expression.eval_flatMap (ρ : V → K) (l : List α) (f : α → Expression V K) :
    Expression.eval ρ (l.flatMap f) = (l.map fun a => (f a).eval ρ).sum := by
  induction l with
  | nil => rfl
  | cons a l ih => simp only [List.flatMap_cons, eval_append, List.map_cons, List.sum_cons, ih]

theorem Expression.eval_filterMap (ρ : V → K) (l : List α) (f : α → Option (V × K)) :
    Expression.eval ρ (l.filterMap f) =
      (l.map fun a => (f a).elim 0 fun p => p.2 * ρ p.1).sum := by
  induction l with
  | nil => rfl
  | cons a l ih =>
    cases h : f a with
    | none => simp only [List.filterMap_cons, h, ih, List.map_cons, List.sum_cons,
        Option.elim_none, zero_add]
    | some p =>
      simp only [eval] at ih
      simp only [List.filterMap_cons, h, eval, List.map_cons, List.sum_cons, ih, Option.elim_some]

theorem Expression.eval_ofOptions (ρ : V → K) (l : List (Option V)) :
    (Expression.ofOptions l).eval ρ = (l.map fun o => o.elim 0 ρ).sum := by
  rw [ofOptions, eval_filterMap]
  congr 2
  funext o
  cases o with
  | none => rfl
  | some v => simp only [Option.map_some, Option.elim_some, one_mul]

end Evaluation

variable {V K : Type*} [Field K] [LinearOrder K] [IsStrictOrderedRing K]

def Constraint.Holds (ρ : V → K) : Constraint V K → Prop
  | .eq e c => e.eval ρ = c
  | .le lhs rhs => lhs.eval ρ ≤ rhs.eval ρ

def Program.Feasible (m : Program V K) (ρ : V → K) : Prop :=
  (∀ v ∈ m.vars, ρ v = 0 ∨ ρ v = 1) ∧ ∀ c ∈ m.constraints, c.Holds ρ

def Program.IsOptimal (m : Program V K) (ρ : V → K) : Prop :=
  m.Feasible ρ ∧ ∀ ρ', m.Feasible ρ' → m.objective.eval ρ ≤ m.objective.eval ρ'

/-- What a floating-point solver delivers: near-binary values and near-exact equations. -/
def Program.Near (m : Program V K) (ε : K) (ρ : V → K) : Prop :=
  (∀ v ∈ m.vars, |ρ v| ≤ ε ∨ |ρ v - 1| ≤ ε) ∧
    ∀ e c, Constraint.eq e c ∈ m.constraints → |e.eval ρ - c| ≤ ε

theorem Program.Feasible.near {m : Program V K} {ρ : V → K} (h : m.Feasible ρ) (hε : 0 ≤ ε) :
    m.Near ε ρ := by
  constructor
  · intro v hv
    rcases h.1 v hv with h0 | h1
    · exact .inl (by rwa [h0, abs_zero])
    · exact .inr (by rwa [h1, sub_self, abs_zero])
  · intro e c hc
    have he : e.eval ρ = c := h.2 _ hc
    rwa [he, sub_self, abs_zero]

section NearBinary
variable {α : Type*} {S : Finset α} {f : α → K} {ε : K}

theorem neg_card_mul_le_sum (hn : ∀ t ∈ S, |f t| ≤ ε ∨ |f t - 1| ≤ ε) :
    -(S.card * ε) ≤ ∑ t ∈ S, f t := by
  have h := Finset.card_nsmul_le_sum S f (-ε) fun t ht => by
    rcases hn t ht with h0 | h1
    · exact (abs_le.1 h0).1
    · linarith [(abs_le.1 h1).1]
  rw [nsmul_eq_mul] at h
  linarith

theorem high_ge (hn : ∀ t ∈ S, |f t| ≤ ε ∨ |f t - 1| ≤ ε) (ht : t ∈ S) (hft : 1 / 2 < f t) :
    1 - ε ≤ f t := by
  rcases hn t ht with h0 | h1
  · linarith [(abs_le.1 h0).2]
  · linarith [(abs_le.1 h1).1]

theorem exists_high (hn : ∀ t ∈ S, |f t| ≤ ε ∨ |f t - 1| ≤ ε) (hs : |∑ t ∈ S, f t - 1| ≤ ε)
    (hε : (S.card + 1) * ε < 1) : ∃ t ∈ S, 1 / 2 < f t := by
  -- were all values low, their sum would fall short of 1
  by_contra hno
  push Not at hno
  have h := Finset.sum_le_card_nsmul S f ε fun t ht => by
    rcases hn t ht with h0 | h1
    · exact (abs_le.1 h0).2
    · linarith [hno t ht, (abs_le.1 h1).1]
  rw [nsmul_eq_mul] at h
  linarith [(abs_le.1 hs).1]

theorem high_unique (hn : ∀ t ∈ S, |f t| ≤ ε ∨ |f t - 1| ≤ ε) (hs : |∑ t ∈ S, f t - 1| ≤ ε)
    (hε : (S.card + 1) * ε < 1) (ht : t ∈ S) (ht' : t' ∈ S) (hft : 1 / 2 < f t)
    (hft' : 1 / 2 < f t') : t' = t := by
  classical
  -- two high values would push the sum past 1
  by_contra hne
  have hmem : t' ∈ S.erase t := Finset.mem_erase.2 ⟨hne, ht'⟩
  have hrest := neg_card_mul_le_sum (S := (S.erase t).erase t') (f := f) (ε := ε)
    fun a ha => hn a (Finset.mem_of_mem_erase (Finset.mem_of_mem_erase ha))
  have hcard : ((S.erase t).erase t').card + 2 = S.card := by
    rw [← Finset.card_erase_add_one ht, ← Finset.card_erase_add_one hmem]
  have hcast : (((S.erase t).erase t').card : K) + 2 = S.card := by exact_mod_cast hcard
  have hsum : f t + (f t' + ∑ a ∈ (S.erase t).erase t', f a) = ∑ a ∈ S, f a := by
    rw [Finset.add_sum_erase _ _ hmem, Finset.add_sum_erase _ _ ht]
  have hge := high_ge hn ht hft
  have hge' := high_ge hn ht' hft'
  have hle := (abs_le.1 hs).2
  have hnonneg : (0 : K) ≤ ((S.erase t).erase t').card := Nat.cast_nonneg _
  nlinarith

/-- Values near 0 or 1 that add up to nearly 1 have exactly one member above a half. -/
theorem exists_unique_high (hn : ∀ t ∈ S, |f t| ≤ ε ∨ |f t - 1| ≤ ε)
    (hs : |∑ t ∈ S, f t - 1| ≤ ε) (hε : (S.card + 1) * ε < 1) :
    ∃ t ∈ S, 1 / 2 < f t ∧ ∀ t' ∈ S, 1 / 2 < f t' → t' = t := by
  obtain ⟨t, ht, hft⟩ := exists_high hn hs hε
  exact ⟨t, ht, hft, fun t' ht' hft' => high_unique hn hs hε ht ht' hft hft'⟩

end NearBinary

end BinaryProgram
