import Gridshift.PlanEncoding

namespace Gridshift
open BinaryProgram
set_option autoImplicit true

theorem Assignment.encode_binary (s : Assignment jobs nSlots) (v : Var) :
    s.encode v = 0 ∨ s.encode v = 1 := by
  cases v <;> simp only [encode] <;> split <;> simp

theorem Assignment.encode_nonneg (s : Assignment jobs nSlots) (v : Var) : 0 ≤ s.encode v := by
  rcases s.encode_binary v with h | h <;> rw [h]
  exact zero_le_one

theorem Assignment.encode_le_one (s : Assignment jobs nSlots) (v : Var) : s.encode v ≤ 1 := by
  rcases s.encode_binary v with h | h <;> rw [h]
  exact zero_le_one

theorem Assignment.Covers.le_maxDur {s : Assignment jobs nSlots} (h : s.Covers t d) :
    d ≤ maxDur jobs := by
  obtain ⟨j, hd, _⟩ := h
  exact hd.trans (durationSlots_le_maxDur j)

theorem Assignment.Covers.le_slots {s : Assignment jobs nSlots} (h : s.Covers t d) :
    t + d ≤ nSlots := by
  obtain ⟨j, hd, rfl⟩ := h
  have := (s.legal j).2
  omega

theorem Assignment.encode_w_of_covers {s : Assignment jobs nSlots} (hd : 1 ≤ d)
    (h : s.Covers t d) : s.encode (.w t d) = 1 := if_pos ⟨hd, h⟩

theorem Assignment.encode_w_of_not_covers {s : Assignment jobs nSlots} (h : ¬ s.Covers t d) :
    s.encode (.w t d) = 0 := if_neg fun hc => h hc.2

theorem Assignment.feasible_encode (hfit : JobsFit jobs nSlots)
    (s : Assignment jobs nSlots) : (planModel jobs nSlots prices).Feasible s.encode := by
  refine ⟨fun v _ => s.encode_binary v, (planModel_holds_iff _).2 ⟨?_, ?_, ?_⟩⟩
  · rw [once_holds_iff]
    intro j
    simp only [startValue_encode]
    rw [Finset.sum_ite_eq, if_pos (Finset.mem_range.2 (hfit.lt_of_legal j (s.legal j)))]
  · rw [cover_holds_iff]
    intro j t _ _ d hd hd'
    by_cases hs : s.start j = t
    · rw [encode_w_of_covers hd ⟨j, hd', hs⟩]
      exact s.encode_le_one _
    · rw [encode_x, if_neg hs]
      exact s.encode_nonneg _
  · rw [phantom_holds_iff]
    intro t d _ _ _
    simp only [startValue_encode]
    by_cases hc : s.Covers t d
    · obtain ⟨j, hd, hs⟩ := hc
      have hm : (1 : Rat) ∈ ((List.finRange jobs.length).filter fun j =>
          d ≤ (jobs.get j).durationSlots).map fun j => if s.start j = t then 1 else 0 :=
        List.mem_map.2 ⟨j, List.mem_filter.2 ⟨List.mem_finRange j, decide_eq_true hd⟩, if_pos hs⟩
      refine (s.encode_le_one _).trans (List.single_le_sum ?_ _ hm)
      intro q hq
      obtain ⟨i, _, rfl⟩ := List.mem_map.1 hq
      split <;> norm_num
    · rw [encode_w_of_not_covers hc]
      refine List.sum_nonneg fun q hq => ?_
      obtain ⟨i, _, rfl⟩ := List.mem_map.1 hq
      split <;> norm_num

theorem exists_high_start (h : (planModel jobs nSlots prices).Near ε ρ)
    (hε : (nSlots + 1) * ε < 1) (j : Fin jobs.length) :
    ∃ t < nSlots, (jobs.get j).LegalStart nSlots t ∧ 1 / 2 < ρ (.x j t) ∧
      ∀ t' < nSlots, (jobs.get j).LegalStart nSlots t' → 1 / 2 < ρ (.x j t') →
        t' = t := by
  have hsum : |∑ t ∈ Finset.range nSlots, startValue jobs nSlots ρ j t - 1| ≤ ε := by
    have he := h.2 _ _ (List.mem_append_left _ (List.mem_append_left _
      (List.mem_map.2 ⟨j, List.mem_finRange j, rfl⟩)))
    simpa only [Expression.eval_ofOptions, List.map_map, Function.comp_def, elim_xVar,
      sum_map_range] using he
  have hε0 : 0 ≤ ε := (abs_nonneg _).trans hsum
  have hnear (t : Nat) (ht : t ∈ Finset.range nSlots) :
      |startValue jobs nSlots ρ j t| ≤ ε ∨
        |startValue jobs nSlots ρ j t - 1| ≤ ε := by
    by_cases hl : (jobs.get j).LegalStart nSlots t
    · rw [startValue, if_pos hl]
      exact h.1 _ (mem_planVars_x.2 ⟨j.isLt, Finset.mem_range.1 ht, hl⟩)
    · rw [startValue, if_neg hl, abs_zero]
      exact .inl hε0
  obtain ⟨t, ht, hhigh, huniq⟩ := exists_unique_high hnear hsum (by rwa [Finset.card_range])
  have hl : (jobs.get j).LegalStart nSlots t := by
    by_contra hl
    rw [startValue, if_neg hl] at hhigh
    norm_num at hhigh
  rw [startValue, if_pos hl] at hhigh
  refine ⟨t, Finset.mem_range.1 ht, hl, hhigh, fun t' ht' hl' hhigh' => ?_⟩
  exact huniq t' (Finset.mem_range.2 ht') (by rwa [startValue, if_pos hl'])

theorem Assignment.x_of_unique (h : (planModel jobs nSlots prices).Feasible ρ)
    (s : Assignment jobs nSlots) (hhigh : ∀ j : Fin jobs.length, 1 / 2 < ρ (.x j (s.start j)))
    (huniq : ∀ j : Fin jobs.length, ∀ t < nSlots, (jobs.get j).LegalStart nSlots t →
      1 / 2 < ρ (.x j t) → t = s.start j)
    (ht : t < nSlots) (hl : (jobs.get j).LegalStart nSlots t) :
    ρ (.x j t) = if s.start j = t then 1 else 0 := by
  rcases h.1 _ (mem_planVars_x.2 ⟨j.isLt, ht, hl⟩) with h0 | h1
  · rw [h0, if_neg]
    intro hs
    have hj := hhigh j
    rw [hs, h0] at hj
    norm_num at hj
  · rw [h1, if_pos (huniq j t ht hl (by rw [h1]; norm_num)).symm]

theorem Assignment.w_of_covers (h : (planModel jobs nSlots prices).Feasible ρ)
    (s : Assignment jobs nSlots) (hx : ∀ j : Fin jobs.length, ρ (.x j (s.start j)) = 1)
    (hv : .w t d ∈ planVars jobs nSlots) (hc : s.Covers t d) : ρ (.w t d) = 1 := by
  obtain ⟨-, hcover, -⟩ := (planModel_holds_iff ρ).1 h.2
  rw [cover_holds_iff] at hcover
  obtain ⟨hd, -, hn⟩ := mem_planVars_w.1 hv
  obtain ⟨j, hdj, rfl⟩ := hc
  have hle := hcover j (s.start j) (by omega) (s.legal j) d hd hdj
  rw [hx j] at hle
  rcases h.1 _ hv with h0 | h1
  · rw [h0] at hle
    norm_num at hle
  · exact h1

theorem Assignment.w_of_not_covers (h : (planModel jobs nSlots prices).Feasible ρ)
    (s : Assignment jobs nSlots)
    (hx : ∀ j : Fin jobs.length, (jobs.get j).LegalStart nSlots t → s.start j ≠ t → ρ (.x j t) = 0)
    (hv : .w t d ∈ planVars jobs nSlots) (hc : ¬ s.Covers t d) : ρ (.w t d) = 0 := by
  obtain ⟨-, -, hphantom⟩ := (planModel_holds_iff ρ).1 h.2
  rw [phantom_holds_iff] at hphantom
  obtain ⟨hd, hm, hn⟩ := mem_planVars_w.1 hv
  have hle := hphantom t d hd hm hn
  rw [List.sum_eq_zero] at hle
  · rcases h.1 _ hv with h0 | h1
    · exact h0
    · rw [h1] at hle
      norm_num at hle
  · intro q hq
    obtain ⟨j, hj, rfl⟩ := List.mem_map.1 hq
    have hdj := of_decide_eq_true (List.mem_filter.1 hj).2
    by_cases hl : (jobs.get j).LegalStart nSlots t
    · rw [startValue, if_pos hl, hx j hl]
      intro hs
      exact hc ⟨j, hdj, hs⟩
    · rw [startValue, if_neg hl]

/-- A feasible point is the encoding of an assignment on every declared variable. -/
theorem exists_decode (h : (planModel jobs nSlots prices).Feasible ρ) :
    ∃ s : Assignment jobs nSlots, ∀ v ∈ planVars jobs nSlots, ρ v = s.encode v := by
  choose start hlt hlegal hhigh huniq using
    exists_high_start (h.near le_rfl) (by rw [mul_zero]; exact zero_lt_one)
  let s : Assignment jobs nSlots := ⟨start, hlegal⟩
  have hx (j : Fin jobs.length) (t : Nat) (ht : t < nSlots)
      (hl : (jobs.get j).LegalStart nSlots t) : ρ (.x j t) = if start j = t then 1 else 0 :=
    s.x_of_unique h hhigh huniq ht hl
  refine ⟨s, fun v hv => ?_⟩
  cases v with
  | x j t =>
    obtain ⟨hj, ht, hl⟩ := mem_planVars_x.1 hv
    rw [hx ⟨j, hj⟩ t ht hl]
    exact (s.encode_x ⟨j, hj⟩ t).symm
  | w t d =>
    obtain ⟨hd, hm, hn⟩ := mem_planVars_w.1 hv
    by_cases hc : s.Covers t d
    · rw [Assignment.encode_w_of_covers hd hc]
      apply s.w_of_covers h ?_ hv hc
      intro j
      rw [hx j (start j) (hlt j) (hlegal j), if_pos rfl]
    · rw [Assignment.encode_w_of_not_covers hc]
      apply s.w_of_not_covers h ?_ hv hc
      intro j hl hs
      rw [hx j t (by omega) hl, if_neg hs]

theorem Assignment.covers_iff (s : Assignment jobs nSlots) (hd : 1 ≤ d) :
    s.Covers t d ↔ d ≤ s.windowSlots t := by
  rw [windowSlots, Finset.le_sup_iff (Nat.lt_of_lt_of_le Nat.zero_lt_one hd)]
  simp only [Covers, Finset.mem_filter, Finset.mem_univ, true_and, and_comm]

theorem planObjective_eval (ρ : Var → Rat) :
    (planObjective jobs nSlots prices).eval ρ = ∑ t ∈ Finset.range nSlots,
      ∑ i ∈ Finset.range (maxDur jobs),
        if t + (1 + i) ≤ nSlots then prices.getD (t + i) 0 * ρ (.w t (1 + i)) else 0 := by
  rw [planObjective, Expression.eval_flatMap, sum_map_range]
  apply Finset.sum_congr rfl
  intro t _
  rw [Expression.eval_filterMap, List.range'_eq_map_range, List.map_map, sum_map_range]
  apply Finset.sum_congr rfl
  intro i _
  simp only [Function.comp_apply, wVar]
  split
  · rw [show t + (1 + i) - 1 = t + i by omega]
    rfl
  · rfl

theorem Assignment.window_eval {prices : List Rat} (s : Assignment jobs nSlots) (t : Nat) :
    (∑ i ∈ Finset.range (maxDur jobs),
      if t + (1 + i) ≤ nSlots then
        prices.getD (t + i) 0 * s.encode (.w t (1 + i)) else 0) =
      ∑ i ∈ Finset.range (s.windowSlots t), prices.getD (t + i) 0 := by
  have hcovers {i : Nat} : s.Covers t (1 + i) ↔ i < s.windowSlots t := by
    rw [s.covers_iff (Nat.le_add_right 1 i)]
    omega
  have hsub : Finset.range (s.windowSlots t) ⊆ Finset.range (maxDur jobs) := by
    intro i hi
    have := (hcovers.2 (Finset.mem_range.1 hi)).le_maxDur
    exact Finset.mem_range.2 (by omega)
  rw [← Finset.sum_subset hsub]
  · apply Finset.sum_congr rfl
    intro i hi
    have hc := hcovers.2 (Finset.mem_range.1 hi)
    rw [if_pos hc.le_slots, encode_w_of_covers (Nat.le_add_right 1 i) hc, mul_one]
  · intro i _ hi
    have hc : ¬ s.Covers t (1 + i) := fun hc => hi (Finset.mem_range.2 (hcovers.1 hc))
    rw [encode_w_of_not_covers hc, mul_zero, ite_self]

theorem Assignment.objective_encode (hfit : JobsFit jobs nSlots)
    (s : Assignment jobs nSlots) :
    (planModel jobs nSlots prices).objective.eval s.encode = s.cost prices := by
  change (planObjective jobs nSlots prices).eval s.encode = s.cost prices
  have hsub : Finset.univ.image s.start ⊆ Finset.range nSlots := by
    intro t ht
    obtain ⟨j, _, rfl⟩ := Finset.mem_image.1 ht
    exact Finset.mem_range.2 (hfit.lt_of_legal j (s.legal j))
  rw [planObjective_eval, cost, Finset.sum_subset hsub]
  · exact Finset.sum_congr rfl fun t _ => s.window_eval t
  · intro t _ ht
    have h0 : s.windowSlots t = 0 := by
      by_contra h0
      obtain ⟨j, _, rfl⟩ := (s.covers_iff (Nat.one_le_iff_ne_zero.2 h0)).2 le_rfl
      exact ht (Finset.mem_image_of_mem s.start (Finset.mem_univ j))
    rw [h0, Finset.sum_range_zero]

theorem eval_congr_vars {ρ ρ' : Var → Rat} (h : ∀ v ∈ planVars jobs nSlots, ρ v = ρ' v) :
    (planModel jobs nSlots prices).objective.eval ρ =
      (planModel jobs nSlots prices).objective.eval ρ' := by
  change (planObjective jobs nSlots prices).eval ρ = (planObjective jobs nSlots prices).eval ρ'
  rw [planObjective_eval, planObjective_eval]
  apply Finset.sum_congr rfl
  intro t _
  apply Finset.sum_congr rfl
  intro i hi
  split
  · rename_i hn
    rw [h (.w t (1 + i)) (mem_planVars_w.2 ⟨by omega, by have := Finset.mem_range.1 hi; omega, hn⟩)]
  · rfl

/-- Minimising the program's objective is minimising the cost of an assignment. -/
theorem Assignment.isOptimal_encode_iff (hfit : JobsFit jobs nSlots)
    (s : Assignment jobs nSlots) :
    (planModel jobs nSlots prices).IsOptimal s.encode ↔
      ∀ s' : Assignment jobs nSlots, s.cost prices ≤ s'.cost prices := by
  constructor
  · intro h s'
    have hle := h.2 s'.encode (s'.feasible_encode hfit)
    rwa [s.objective_encode hfit, s'.objective_encode hfit] at hle
  · intro h
    refine ⟨s.feasible_encode hfit, fun ρ hρ => ?_⟩
    obtain ⟨s', hs'⟩ := exists_decode hρ
    rw [eval_congr_vars hs', s.objective_encode hfit, s'.objective_encode hfit]
    exact h s'

instance (jobs : List Job) (nSlots : Nat) : Finite (Assignment jobs nSlots) := by
  have hlt (s : Assignment jobs nSlots) (j : Fin jobs.length) : s.start j < nSlots + 1 := by
    have := (s.legal j).2
    omega
  apply Finite.of_injective fun s j => (⟨s.start j, hlt s j⟩ : Fin (nSlots + 1))
  intro s s' h
  ext j
  exact congrArg Fin.val (congrFun h j)

def JobsFit.earliest (hfit : JobsFit jobs nSlots) : Assignment jobs nSlots where
  start j := (jobs.get j).minStart
  legal j := ⟨le_rfl, (hfit.get j).2⟩

theorem JobsFit.exists_cheapest (hfit : JobsFit jobs nSlots) (prices : List Rat) :
    ∃ s : Assignment jobs nSlots, ∀ s' : Assignment jobs nSlots, s.cost prices ≤ s'.cost prices :=
  have : Nonempty (Assignment jobs nSlots) := ⟨hfit.earliest⟩
  Finite.exists_min (Assignment.cost prices)

theorem JobsFit.exists_optimal (hfit : JobsFit jobs nSlots) :
    ∃ ρ, (planModel jobs nSlots prices).IsOptimal ρ := by
  obtain ⟨s, hs⟩ := hfit.exists_cheapest prices
  exact ⟨s.encode, (s.isOptimal_encode_iff hfit).2 hs⟩

end Gridshift
