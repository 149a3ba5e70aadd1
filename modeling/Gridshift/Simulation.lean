import Gridshift.Machine

namespace Simulation
open Machine
set_option autoImplicit true

/-- Each step of a machine on such an event is a run of another machine that shows the same. -/
def Simulates (step : ε → σ → Option σ) (step' : δ → τ → Option τ) (view : σ → τ) (P : ε → Prop)
    (obs : ε → List ω) (obs' : δ → List ω) : Prop :=
  ∀ e s t, P e → step e s = some t →
    ∃ ds, run step' ds (view s) = some (view t) ∧ ds.flatMap obs' = obs e

theorem Simulates.run {step : ε → σ → Option σ} {step' : δ → τ → Option τ} {view : σ → τ}
    {obs : ε → List ω} {obs' : δ → List ω} (h : Simulates step step' view P obs obs')
    (hP : ∀ e ∈ es, P e) (hrun : run step es s = some t) :
    ∃ ds, Machine.run step' ds (view s) = some (view t) ∧ ds.flatMap obs' = es.flatMap obs := by
  induction es generalizing s with
  | nil =>
    cases hrun
    exact ⟨[], rfl, rfl⟩
  | cons e es ih =>
    obtain ⟨u, hstep, hrest⟩ := (run_cons_iff step).1 hrun
    obtain ⟨ds, hds, hobs⟩ := h e s u (hP e List.mem_cons_self) hstep
    obtain ⟨ds', hds', hobs'⟩ := ih (fun e he => hP e (List.mem_cons_of_mem _ he)) hrest
    refine ⟨ds ++ ds', (run_append_iff step').2 ⟨_, hds, hds'⟩, ?_⟩
    rw [List.flatMap_append, hobs, hobs', List.flatMap_cons]

/-- A step that changes nothing to be seen from the other machine, and shows nothing. -/
theorem exists_run_stutter {step' : δ → τ → Option τ} {obs' : δ → List ω} {view : σ → τ}
    (hview : view t = view s) (hobs : o = []) :
    ∃ ds, Machine.run step' ds (view s) = some (view t) ∧ ds.flatMap obs' = o :=
  ⟨[], congrArg some hview.symm, hobs.symm⟩

theorem exists_run_one {step' : δ → τ → Option τ} {obs' : δ → List ω} {view : σ → τ} (d : δ)
    (hstep : step' d (view s) = some (view t)) (hobs : o = obs' d) :
    ∃ ds, Machine.run step' ds (view s) = some (view t) ∧ ds.flatMap obs' = o := by
  refine ⟨[d], (run_cons_iff step').2 ⟨_, hstep, rfl⟩, ?_⟩
  rw [List.flatMap_singleton, hobs]

section Tracks
variable {step : ε → σ → Option σ} {step' : δ → τ → Option τ} {observe : τ → ε → Option δ}
  {view : τ → σ} {P : τ → Prop}

/-- A machine takes an event as another one takes what that observes in it. -/
def Tracks (step : ε → σ → Option σ) (step' : δ → τ → Option τ) (observe : τ → ε → Option δ)
    (view : τ → σ) (P : τ → Prop) : Prop :=
  ∀ e t, P t → step e (view t) = ((observe t e).bind (step' · t)).map view

/-- What a machine observes in the events, as it takes one after the other. -/
def observed (step' : δ → τ → Option τ) (observe : τ → ε → Option δ) :
    List ε → τ → Option (List δ)
  | [], _ => some []
  | e :: es, t => do
    let d ← observe t e
    let u ← step' d t
    return d :: (← observed step' observe es u)

theorem observed_cons_iff :
    observed step' observe (e :: es) t = some ds ↔ ∃ d u ds', observe t e = some d ∧
      step' d t = some u ∧ observed step' observe es u = some ds' ∧ ds = d :: ds' := by
  simp only [observed, Option.bind_eq_bind, Option.bind_eq_some_iff, Option.pure_def,
    Option.some.injEq]
  constructor
  · rintro ⟨d, hd, u, hu, ds', hds, rfl⟩
    exact ⟨d, u, ds', hd, hu, hds, rfl⟩
  · rintro ⟨d, u, ds', hd, hu, hds, rfl⟩
    exact ⟨d, hd, u, hu, ds', hds, rfl⟩

/-- What was observed was so in one of the events, at the state that the run had come to. -/
theorem observed_split (h : observed step' observe es t = some (ds ++ d :: ds')) :
    ∃ es' e es'' u, es = es' ++ e :: es'' ∧ observed step' observe es' t = some ds ∧
      Machine.run step' ds t = some u ∧ observe u e = some d := by
  induction ds generalizing es t with
  | nil =>
    cases es with
    | nil => cases h
    | cons e es =>
      obtain ⟨_, u, _, hd, -, -, heq⟩ := observed_cons_iff.1 h
      cases heq
      exact ⟨[], e, es, t, rfl, rfl, rfl, hd⟩
  | cons d' ds ih =>
    cases es with
    | nil => cases h
    | cons e es =>
      obtain ⟨_, u, _, hd, hstep, hrest, heq⟩ := observed_cons_iff.1 h
      cases heq
      obtain ⟨es', e', es'', v, rfl, hds, hrun, hobs⟩ := ih hrest
      exact ⟨e :: es', e', es'', v, rfl, observed_cons_iff.2 ⟨d', u, ds, hd, hstep, hds, rfl⟩,
        (run_cons_iff step').2 ⟨u, hstep, hrun⟩, hobs⟩

/-- The runs of a machine are those of the one that it follows, on what that observes. -/
theorem Tracks.run_iff (h : Tracks step step' observe view P)
    (hP : ∀ d t u, P t → step' d t = some u → P u) (ht : P t) :
    Machine.run step es (view t) = some w ↔ ∃ ds u, observed step' observe es t = some ds ∧
      Machine.run step' ds t = some u ∧ view u = w := by
  induction es generalizing t with
  | nil =>
    constructor
    · intro hrun
      exact ⟨[], t, rfl, rfl, Option.some.inj hrun⟩
    · rintro ⟨ds, u, hds, hrun, rfl⟩
      cases hds
      cases hrun
      rfl
  | cons e es ih =>
    rw [run_cons_iff, h e t ht]
    constructor
    · rintro ⟨v, hstep, hrun⟩
      obtain ⟨u, hu, rfl⟩ := Option.map_eq_some_iff.1 hstep
      obtain ⟨d, hd, hstep'⟩ := Option.bind_eq_some_iff.1 hu
      obtain ⟨ds, v, hds, hrun', rfl⟩ := (ih (hP d t u ht hstep')).1 hrun
      exact ⟨d :: ds, v, observed_cons_iff.2 ⟨d, u, ds, hd, hstep', hds, rfl⟩,
        (run_cons_iff step').2 ⟨u, hstep', hrun'⟩, rfl⟩
    · rintro ⟨ds, v, hds, hrun, rfl⟩
      obtain ⟨d, u, ds', hd, hstep', hds', rfl⟩ := observed_cons_iff.1 hds
      obtain ⟨u', hu', hrun'⟩ := (run_cons_iff step').1 hrun
      cases hstep'.symm.trans hu'
      refine ⟨view u, ?_, (ih (hP d t u ht hstep')).2 ⟨ds', v, hds', hrun', rfl⟩⟩
      rw [hd, Option.bind_some, hstep', Option.map_some]

/-- A run is observed in some events if and only if each of its answers can be in one. -/
theorem exists_observed_iff {Q : δ → Prop}
    (hQ : ∀ d t u, step' d t = some u → (Q d ↔ ∃ e, observe t e = some d))
    (hrun : Machine.run step' ds t = some u) :
    (∀ d ∈ ds, Q d) ↔ ∃ es, observed step' observe es t = some ds := by
  induction ds generalizing t with
  | nil => exact ⟨fun _ => ⟨[], rfl⟩, fun _ d hd => absurd hd List.not_mem_nil⟩
  | cons d ds ih =>
    obtain ⟨v, hstep, hrest⟩ := (run_cons_iff step').1 hrun
    rw [List.forall_mem_cons, hQ d t v hstep, ih hrest]
    constructor
    · rintro ⟨⟨e, he⟩, es, hes⟩
      exact ⟨e :: es, observed_cons_iff.2 ⟨d, v, ds, he, hstep, hes, rfl⟩⟩
    · rintro ⟨es, hes⟩
      cases es with
      | nil => cases hes
      | cons e es =>
        obtain ⟨_, v', _, he, hstep', hrest', heq⟩ := observed_cons_iff.1 hes
        cases heq
        cases hstep.symm.trans hstep'
        exact ⟨⟨e, he⟩, es, hrest'⟩

end Tracks

end Simulation
