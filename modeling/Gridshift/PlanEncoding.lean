import Gridshift.Planning

namespace Gridshift
open BinaryProgram
set_option autoImplicit true

/-- A start that the plan may give to a job: eligible, and within the pool to its end. -/
def Job.LegalStart (job : Job) (nSlots t : Nat) : Prop :=
  job.minStart ≤ t ∧ t + job.durationSlots ≤ nSlots

instance (job : Job) (nSlots t : Nat) : Decidable (job.LegalStart nSlots t) :=
  inferInstanceAs (Decidable (_ ∧ _))

/-- Jobs that reach the solver take at least one slot and have room in the pool. -/
def JobsFit (jobs : List Job) (nSlots : Nat) : Prop :=
  ∀ job ∈ jobs, 1 ≤ job.durationSlots ∧ job.minStart + job.durationSlots ≤ nSlots

/-- An assignment gives every job one legal start. -/
@[ext] structure Assignment (jobs : List Job) (nSlots : Nat) where
  start : Fin jobs.length → Nat
  legal : ∀ j : Fin jobs.length, (jobs.get j).LegalStart nSlots (start j)

def Assignment.Covers (s : Assignment jobs nSlots) (t d : Nat) : Prop :=
  ∃ j : Fin jobs.length, d ≤ (jobs.get j).durationSlots ∧ s.start j = t

instance (s : Assignment jobs nSlots) (t d : Nat) : Decidable (s.Covers t d) :=
  inferInstanceAs (Decidable (∃ _, _ ∧ _))

def Assignment.windowSlots (s : Assignment jobs nSlots) (t : Nat) : Nat :=
  (Finset.univ.filter fun j => s.start j = t).sup fun j => (jobs.get j).durationSlots

/-- What an assignment costs: each start slot in use pays for its longest job. -/
def Assignment.cost (prices : List Rat) (s : Assignment jobs nSlots) : Rat :=
  ∑ t ∈ Finset.univ.image s.start, ∑ i ∈ Finset.range (s.windowSlots t), prices.getD (t + i) 0

def Assignment.encode (s : Assignment jobs nSlots) : Var → Rat
  | .x j t => if ∃ h : j < jobs.length, s.start ⟨j, h⟩ = t then 1 else 0
  | .w t d => if 1 ≤ d ∧ s.Covers t d then 1 else 0

@[simp] theorem Assignment.encode_x (s : Assignment jobs nSlots) (j : Fin jobs.length) (t : Nat) :
    s.encode (.x j t) = if s.start j = t then 1 else 0 := by
  simp only [encode, Fin.is_lt, exists_true_left, Fin.eta]

theorem xVar_eq_some_iff :
    xVar jobs nSlots j t = some v ↔ (jobs.get j).LegalStart nSlots t ∧ v = .x j t := by
  simp only [xVar, Job.LegalStart]
  split <;> simp_all [eq_comm]

theorem wVar_eq_some_iff : wVar nSlots t d = some v ↔ t + d ≤ nSlots ∧ v = .w t d := by
  simp only [wVar]
  split <;> simp_all [eq_comm]

theorem durationSlots_le_maxDur (j : Fin jobs.length) :
    (jobs.get j).durationSlots ≤ maxDur jobs := by
  have hm : (jobs.get j).durationSlots ∈ jobs.map Job.durationSlots :=
    List.mem_map_of_mem (List.getElem_mem j.isLt)
  rw [maxDur]
  cases h : (jobs.map Job.durationSlots).max? with
  | none =>
    rw [List.max?_eq_none_iff.1 h] at hm
    cases hm
  | some m => exact (List.max?_eq_some_iff.1 h).2 _ hm

theorem JobsFit.get (h : JobsFit jobs nSlots) (j : Fin jobs.length) :
    1 ≤ (jobs.get j).durationSlots ∧ (jobs.get j).minStart + (jobs.get j).durationSlots ≤ nSlots :=
  h _ (List.getElem_mem j.isLt)

theorem JobsFit.lt_of_legal (h : JobsFit jobs nSlots) (j : Fin jobs.length)
    (ht : (jobs.get j).LegalStart nSlots t) : t < nSlots := by
  have := (h.get j).1
  have := ht.2
  omega

theorem mem_planVars_x :
    Var.x j t ∈ planVars jobs nSlots ↔
      ∃ h : j < jobs.length, t < nSlots ∧ jobs[j].LegalStart nSlots t := by
  simp only [planVars, List.mem_append, List.mem_flatMap, List.mem_filterMap, List.mem_finRange,
    List.mem_range, xVar_eq_some_iff, wVar_eq_some_iff, true_and, reduceCtorEq, and_false,
    exists_false, or_false]
  constructor
  · rintro ⟨k, t', ht', hl, he⟩
    cases he
    exact ⟨k.isLt, ht', hl⟩
  · rintro ⟨h, ht, hl⟩
    exact ⟨⟨j, h⟩, t, ht, hl, rfl⟩

theorem mem_planVars_w :
    Var.w t d ∈ planVars jobs nSlots ↔ 1 ≤ d ∧ d ≤ maxDur jobs ∧ t + d ≤ nSlots := by
  simp only [planVars, List.mem_append, List.mem_flatMap, List.mem_filterMap, List.mem_finRange,
    List.mem_range, List.mem_range'_1, xVar_eq_some_iff, wVar_eq_some_iff, reduceCtorEq, and_false,
    exists_false, false_or]
  constructor
  · rintro ⟨t', ht', d', hd', hn, he⟩
    cases he
    omega
  · rintro ⟨h1, hm, hn⟩
    exact ⟨t, by omega, d, by omega, hn, rfl⟩

/-- The value of a start variable, zero where the variable is absent. -/
def startValue (jobs : List Job) (nSlots : Nat) (ρ : Var → Rat) (j : Fin jobs.length) (t : Nat) :
    Rat :=
  if (jobs.get j).LegalStart nSlots t then ρ (.x j t) else 0

theorem elim_xVar (ρ : Var → Rat) :
    (xVar jobs nSlots j t).elim 0 ρ = startValue jobs nSlots ρ j t := by
  by_cases h : (jobs.get j).LegalStart nSlots t
  · rw [xVar_eq_some_iff.2 ⟨h, rfl⟩, startValue, if_pos h]
    rfl
  · rw [startValue, if_neg h, xVar]
    exact congrArg (fun o => Option.elim o 0 ρ) (if_neg h)

theorem startValue_encode (s : Assignment jobs nSlots) :
    startValue jobs nSlots s.encode j t = if s.start j = t then 1 else 0 := by
  simp only [startValue, Assignment.encode_x]
  split
  · rfl
  · rename_i hl
    rw [if_neg]
    rintro rfl
    exact hl (s.legal j)

theorem once_holds_iff (ρ : Var → Rat) :
    (∀ c ∈ onceConstraints jobs nSlots, c.Holds ρ) ↔
      ∀ j, ∑ t ∈ Finset.range nSlots, startValue jobs nSlots ρ j t = 1 := by
  simp only [onceConstraints, List.mem_map, List.mem_finRange, true_and, forall_exists_index,
    forall_apply_eq_imp_iff, Constraint.Holds, Expression.eval_ofOptions, List.map_map,
    Function.comp_def, elim_xVar, sum_map_range]

theorem forall_wVar {f : Var → α} {P : α → Prop} :
    (∀ c, (wVar nSlots t d).map f = some c → P c) ↔ (t + d ≤ nSlots → P (f (.w t d))) := by
  constructor
  · intro h hn
    exact h _ (by rw [wVar_eq_some_iff.2 ⟨hn, rfl⟩]; rfl)
  · intro h c hc
    obtain ⟨v, hv, rfl⟩ := Option.map_eq_some_iff.1 hc
    obtain ⟨hn, rfl⟩ := wVar_eq_some_iff.1 hv
    exact h hn

theorem cover_holds_iff (ρ : Var → Rat) :
    (∀ c ∈ coverConstraints jobs nSlots, c.Holds ρ) ↔
      ∀ j : Fin jobs.length, ∀ t < nSlots, (jobs.get j).LegalStart nSlots t →
        ∀ d, 1 ≤ d → d ≤ (jobs.get j).durationSlots → ρ (.x j t) ≤ ρ (.w t d) := by
  simp only [coverConstraints, List.forall_mem_flatMap, List.mem_finRange, true_imp_iff,
    List.mem_range, Option.mem_toList, xVar_eq_some_iff, and_imp,
    forall_eq_apply_imp_iff, List.forall_mem_filterMap, List.mem_range'_1, forall_wVar,
    Constraint.Holds, Expression.eval_single, one_mul]
  constructor
  · intro h j t ht hl d hd hd'
    exact h j t ht hl d hd (by omega) ((Nat.add_le_add_left hd' t).trans hl.2)
  · intro h j t ht hl d hd hd' _
    exact h j t ht hl d hd (by omega)

theorem phantom_holds_iff (ρ : Var → Rat) :
    (∀ c ∈ phantomConstraints jobs nSlots, c.Holds ρ) ↔
      ∀ t d, 1 ≤ d → d ≤ maxDur jobs → t + d ≤ nSlots →
        ρ (.w t d) ≤ (((List.finRange jobs.length).filter fun j =>
          d ≤ (jobs.get j).durationSlots).map fun j => startValue jobs nSlots ρ j t).sum := by
  simp only [phantomConstraints, List.forall_mem_flatMap, List.forall_mem_filterMap,
    List.mem_range, List.mem_range'_1, forall_wVar, Constraint.Holds, Expression.eval_single,
    one_mul, Expression.eval_ofOptions, List.map_map, Function.comp_def, elim_xVar]
  constructor
  · intro h t d hd hm hn
    exact h t (by omega) d (by omega) hn
  · intro h t _ d hd hn
    exact h t d hd.1 (by omega) hn

theorem planModel_holds_iff (ρ : Var → Rat) :
    (∀ c ∈ (planModel jobs nSlots prices).constraints, c.Holds ρ) ↔
      (∀ c ∈ onceConstraints jobs nSlots, c.Holds ρ) ∧
      (∀ c ∈ coverConstraints jobs nSlots, c.Holds ρ) ∧
      ∀ c ∈ phantomConstraints jobs nSlots, c.Holds ρ := by
  simp only [planModel, List.mem_append, or_imp, forall_and, and_assoc]

end Gridshift
