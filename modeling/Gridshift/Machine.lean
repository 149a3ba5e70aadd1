import Mathlib

namespace Machine
set_option autoImplicit true

variable {σ ε : Type*} (step : ε → σ → Option σ)

/-- A machine takes each event in turn, as far as it can. -/
def run : List ε → σ → Option σ
  | [], s => some s
  | e :: es, s => (step e s).bind (run es)

@[simp] theorem run_nil (s : σ) : run step [] s = some s := rfl

theorem run_cons_iff :
    run step (e :: es) s = some s' ↔ ∃ t, step e s = some t ∧ run step es t = some s' :=
  Option.bind_eq_some_iff

theorem run_append_iff :
    run step (es ++ es') s = some s' ↔ ∃ t, run step es s = some t ∧ run step es' t = some s' := by
  induction es generalizing s with
  | nil => simp only [List.nil_append, run_nil, Option.some.injEq, exists_eq_left']
  | cons e es ih =>
    simp only [List.cons_append, run_cons_iff, ih]
    constructor
    · rintro ⟨t, hstep, u, hrun, hrest⟩
      exact ⟨u, ⟨t, hstep, hrun⟩, hrest⟩
    · rintro ⟨u, ⟨t, hstep, hrun⟩, hrest⟩
      exact ⟨t, hstep, u, hrun, hrest⟩

theorem run_concat_iff :
    run step (es ++ [e]) s = some s' ↔ ∃ t, run step es s = some t ∧ step e t = some s' := by
  simp only [run_append_iff, run_cons_iff, run_nil, Option.some.injEq, exists_eq_right]

variable {step}

/-- What holds at the start, and after each step of a run for the events up to there, holds at
the end for all of them. -/
theorem run_induction {P : List ε → σ → Prop} (h : run step es s = some s') (hstart : P [] s)
    (hstep : ∀ es e t u, run step es s = some t → P es t → step e t = some u → P (es ++ [e]) u) :
    P es s' := by
  induction es using List.reverseRecOn generalizing s' with
  | nil =>
    cases h
    exact hstart
  | append_singleton es e ih =>
    obtain ⟨t, hrun, hlast⟩ := (run_concat_iff step).1 h
    exact hstep es e t s' hrun (ih hrun) hlast

theorem run_invariant {P : σ → Prop} (h : run step es s = some s') (hstart : P s)
    (hstep : ∀ e t u, P t → step e t = some u → P u) : P s' :=
  run_induction (P := fun _ => P) h hstart fun _ e t u _ => hstep e t u

/-- The states after each of the events, and the state before them, have a property. -/
def Throughout (step : ε → σ → Option σ) (P : σ → Prop) (es : List ε) (s : σ) : Prop :=
  ∀ es' t, es' <+: es → run step es' s = some t → P t

theorem Throughout.concat {P : σ → Prop} (h : Throughout step P es s)
    (hlast : ∀ t, run step (es ++ [e]) s = some t → P t) : Throughout step P (es ++ [e]) s := by
  intro es' t hpre hrun
  rcases List.prefix_concat_iff.1 hpre with rfl | hpre
  · exact hlast t hrun
  · exact h es' t hpre hrun

/-- A property that a run begins without and ends with has set in at a last step, from which on
it holds. -/
theorem exists_onset {P : σ → Prop} (h : run step es s = some s') (hstart : ¬ P s) (hend : P s') :
    ∃ before e after t u, es = before ++ e :: after ∧ run step before s = some t ∧
      step e t = some u ∧ run step after u = some s' ∧ ¬ P t ∧ Throughout step P after u := by
  induction es using List.reverseRecOn generalizing s' with
  | nil =>
    cases h
    exact absurd hend hstart
  | append_singleton es e ih =>
    obtain ⟨v, hrun, hlast⟩ := (run_concat_iff step).1 h
    by_cases hv : P v
    · obtain ⟨before, e', after, t, u, rfl, hbefore, hstep, hafter, ht, hu⟩ := ih hrun hv
      refine ⟨before, e', after ++ [e], t, u, by simp, hbefore, hstep, ?_, ht, hu.concat ?_⟩
      · exact (run_concat_iff step).2 ⟨v, hafter, hlast⟩
      · intro w hw
        obtain ⟨v', hv', hw'⟩ := (run_concat_iff step).1 hw
        cases hafter.symm.trans hv'
        cases hlast.symm.trans hw'
        exact hend
    · refine ⟨es, e, [], v, s', rfl, hrun, hlast, rfl, hv, ?_⟩
      intro es' t hpre hrun'
      cases List.prefix_nil.1 hpre
      cases hrun'
      exact hend

end Machine
