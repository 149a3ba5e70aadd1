import Gridshift.Machine

namespace Ledger
open Machine
set_option autoImplicit true

variable {σ ε : Type*} (step : ε → σ → Option σ)

/-- What the steps of a run come to, each by its event and the states before and after it. -/
def total (c : ε → σ → σ → Nat) : List ε → σ → Nat
  | [], _ => 0
  | e :: es, s => ((step e s).map fun t => c e s t + total c es t).getD 0

@[simp] theorem total_nil (c : ε → σ → σ → Nat) (s : σ) : total step c [] s = 0 := rfl

variable {step}

theorem total_cons {c : ε → σ → σ → Nat} (hstep : step e s = some t) :
    total step c (e :: es) s = c e s t + total step c es t := by
  rw [total, hstep, Option.map_some, Option.getD_some]

theorem total_concat {c : ε → σ → σ → Nat} (h : run step es s = some t)
    (hstep : step e t = some u) :
    total step c (es ++ [e]) s = total step c es s + c e t u := by
  induction es generalizing s with
  | nil =>
    cases h
    rw [List.nil_append, total_cons hstep, total_nil, total_nil, Nat.add_comm]
  | cons e' es ih =>
    obtain ⟨v, hv, hrest⟩ := (run_cons_iff step).1 h
    rw [List.cons_append, total_cons hv, total_cons hv, ih hrest, Nat.add_assoc]

theorem total_add (c d : ε → σ → σ → Nat) (es : List ε) (s : σ) :
    total step (fun e s t => c e s t + d e s t) es s = total step c es s + total step d es s := by
  induction es generalizing s with
  | nil => rfl
  | cons e es ih =>
    cases hstep : step e s with
    | none => simp only [total, hstep, Option.map_none, Option.getD_none, Nat.add_zero]
    | some t => rw [total_cons hstep, total_cons hstep, total_cons hstep, ih, Nat.add_add_add_comm]

theorem total_of_event {c : ε → Nat} (h : run step es s = some t) :
    total step (fun e _ _ => c e) es s = (es.map c).sum := by
  induction es generalizing s with
  | nil => rfl
  | cons e es ih =>
    obtain ⟨v, hv, hrest⟩ := (run_cons_iff step).1 h
    rw [total_cons hv, ih hrest, List.map_cons, List.sum_cons]

theorem total_countP (p : ε → Bool) (h : run step es s = some t) :
    total step (fun e _ _ => if p e = true then 1 else 0) es s = es.countP p := by
  induction es generalizing s with
  | nil => rfl
  | cons e es ih =>
    obtain ⟨v, hv, hrest⟩ := (run_cons_iff step).1 h
    rw [total_cons hv, ih hrest, List.countP_cons, Nat.add_comm]

/-- A stock that every step leaves with at most what it had and got, less what it gave, never
gives more than it got. -/
theorem total_le (stock : σ → Nat) (given got : ε → σ → σ → Nat) (h : run step es s = some t)
    (hstep : ∀ es e t u, run step es s = some t → step e t = some u →
      stock u + given e t u ≤ stock t + got e t u) :
    stock t + total step given es s ≤ stock s + total step got es s := by
  induction es using List.reverseRecOn generalizing t with
  | nil =>
    cases h
    rfl
  | append_singleton es e ih =>
    obtain ⟨v, hrun, hlast⟩ := (run_concat_iff step).1 h
    have hbefore := ih hrun
    have hnow := hstep es e v t hrun hlast
    rw [total_concat hrun hlast, total_concat hrun hlast]
    omega

theorem total_eq (stock : σ → Nat) (given got : ε → σ → σ → Nat) (h : run step es s = some t)
    (hstep : ∀ es e t u, run step es s = some t → step e t = some u →
      stock u + given e t u = stock t + got e t u) :
    stock t + total step given es s = stock s + total step got es s := by
  induction es using List.reverseRecOn generalizing t with
  | nil =>
    cases h
    rfl
  | append_singleton es e ih =>
    obtain ⟨v, hrun, hlast⟩ := (run_concat_iff step).1 h
    have hbefore := ih hrun
    have hnow := hstep es e v t hrun hlast
    rw [total_concat hrun hlast, total_concat hrun hlast]
    omega

end Ledger
