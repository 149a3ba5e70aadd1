import Gridshift.PlanOutcome

namespace Gridshift
open BinaryProgram
set_option autoImplicit true

/-- A 0/1 point of the plan's program: feasible, and silent on undeclared variables. -/
def PlanPoint (jobs : List Job) (nSlots : Nat) (prices : List Rat) :=
  {ρ : Var → Rat // (planModel jobs nSlots prices).Feasible ρ ∧ ∀ v ∉ planVars jobs nSlots, ρ v = 0}

theorem Assignment.encode_undeclared (hfit : JobsFit jobs nSlots) (s : Assignment jobs nSlots)
    (v : Var) (hv : v ∉ planVars jobs nSlots) : s.encode v = 0 := by
  cases v with
  | x j t =>
    apply if_neg
    rintro ⟨hj, rfl⟩
    have hl := s.legal ⟨j, hj⟩
    exact hv (mem_planVars_x.2 ⟨hj, hfit.lt_of_legal ⟨j, hj⟩ hl, hl⟩)
  | w t d =>
    apply if_neg
    rintro ⟨hd, hc⟩
    exact hv (mem_planVars_w.2 ⟨hd, hc.le_maxDur, hc.le_slots⟩)

def Assignment.point (hfit : JobsFit jobs nSlots) (prices : List Rat)
    (s : Assignment jobs nSlots) : PlanPoint jobs nSlots prices :=
  ⟨s.encode, s.feasible_encode hfit, s.encode_undeclared hfit⟩

theorem Assignment.encode_injective {s s' : Assignment jobs nSlots} (h : s.encode = s'.encode) :
    s = s' := by
  ext j
  have hx := congrFun h (.x j (s.start j))
  rw [encode_x, encode_x, if_pos rfl] at hx
  by_contra hne
  rw [if_neg (Ne.symm hne)] at hx
  norm_num at hx

theorem Assignment.point_bijective (hfit : JobsFit jobs nSlots) (prices : List Rat) :
    Function.Bijective (Assignment.point hfit prices) := by
  constructor
  · intro s s' h
    exact encode_injective (congrArg Subtype.val h)
  · intro p
    obtain ⟨s, hs⟩ := exists_decode p.2.1
    refine ⟨s, Subtype.ext (funext fun v => ?_)⟩
    by_cases hv : v ∈ planVars jobs nSlots
    · exact (hs v hv).symm
    · exact (s.encode_undeclared hfit v hv).trans (p.2.2 v hv).symm

theorem pickSlot_of_decode (hfit : JobsFit jobs nSlots) {s : Assignment jobs nSlots}
    (hs : ∀ v ∈ planVars jobs nSlots, ρ v = s.encode v) (j : Fin jobs.length) :
    pickSlot jobs nSlots (F64.finite ∘ ρ) j =
      some ⟨s.start j, hfit.lt_of_legal j (s.legal j)⟩ := by
  have hx (t : Nat) (ht : t < nSlots) (hl : (jobs.get j).LegalStart nSlots t) :
      ρ (.x j t) = if s.start j = t then 1 else 0 :=
    (hs _ (mem_planVars_x.2 ⟨j.isLt, ht, hl⟩)).trans (s.encode_x j t)
  apply pickSlot_eq_of_unique (s.legal j)
  · simp only [Function.comp_apply, F64.gt, hx _ (hfit.lt_of_legal j (s.legal j)) (s.legal j)]
    norm_num
  · intro t ht hhigh
    by_contra hne
    have hne' : s.start j ≠ t := fun he => hne (Fin.ext he.symm)
    simp only [Function.comp_apply, F64.gt, hx t t.isLt ht, if_neg hne'] at hhigh
    norm_num at hhigh

def Assignment.result {priced : List PricedWindow} (hfit : JobsFit jobs priced.length)
    (s : Assignment jobs priced.length) : PlanWindowsResult where
  assignments := (List.finRange jobs.length).map fun j =>
    ⟨(jobs.get j).ref, (priced.get ⟨s.start j, hfit.lt_of_legal j (s.legal j)⟩).toChosen,
      (jobs.get j).intervalSecs⟩
  skipped := []

/-- An exact solver makes the plan a cheapest legal assignment. -/
theorem exists_cheapest_result (hfit : JobsFit jobs priced.length)
    (hsolve : lib.solve (planModel jobs priced.length (priced.map PricedWindow.pricePPerKwh)) =
      .ok (F64.finite ∘ ρ))
    (hopt : (planModel jobs priced.length (priced.map PricedWindow.pricePPerKwh)).IsOptimal ρ) :
    ∃ s : Assignment jobs priced.length, assignJobs lib jobs priced = s.result hfit ∧
      ∀ s' : Assignment jobs priced.length,
        s.cost (priced.map PricedWindow.pricePPerKwh) ≤
          s'.cost (priced.map PricedWindow.pricePPerKwh) := by
  obtain ⟨s, hs⟩ := exists_decode hopt.1
  refine ⟨s, assignJobs_eq hsolve (pickSlot_of_decode hfit hs), fun s' => ?_⟩
  have hle := hopt.2 s'.encode (s'.feasible_encode hfit)
  rwa [eval_congr_vars hs, s.objective_encode hfit, s'.objective_encode hfit] at hle

open Classical in
/-- A solver that returns an exact minimiser of every program that has one. -/
noncomputable def exactSolve (m : Program Var Rat) : Except String (Var → F64) :=
  if h : ∃ ρ, m.IsOptimal ρ then .ok (F64.finite ∘ h.choose) else .error "Infeasible"

theorem exactSolve_of_fit (hfit : JobsFit jobs nSlots) (prices : List Rat) :
    ∃ ρ, exactSolve (planModel jobs nSlots prices) = .ok (F64.finite ∘ ρ) ∧
      (planModel jobs nSlots prices).IsOptimal ρ :=
  ⟨_, dif_pos hfit.exists_optimal, hfit.exists_optimal.choose_spec⟩

theorem Assignment.cost_single (prices : List Rat) (s : Assignment [job] nSlots) :
    s.cost prices = ∑ i ∈ Finset.range job.durationSlots, prices.getD (s.start 0 + i) 0 := by
  have hu : (Finset.univ : Finset (Fin [job].length)) = {0} := rfl
  have hw : s.windowSlots (s.start 0) = job.durationSlots := by
    rw [windowSlots, hu, Finset.filter_singleton, if_pos rfl, Finset.sup_singleton]
    rfl
  rw [cost, hu, Finset.image_singleton, Finset.sum_singleton, hw]

/-- The program built for a plan has exactly the legal assignments for points, at their costs. -/
theorem planModel_exact (lib : Libraries) (jobs : List Job) (priced : List PricedWindow)
    (prices : List Rat) (hprices : prices = priced.map PricedWindow.pricePPerKwh)
    (hfit : JobsFit jobs priced.length)
    (hsolve : ∃ ρ, lib.solve (planModel jobs priced.length prices) = .ok (F64.finite ∘ ρ) ∧
      (planModel jobs priced.length prices).IsOptimal ρ) :
    Function.Bijective (Assignment.point hfit prices) ∧
    (∀ s : Assignment jobs priced.length,
      (∀ j t, (s.point hfit prices).val (.x (j : Fin jobs.length) t) = 1 ↔ s.start j = t) ∧
      (∀ t d, .w t d ∈ planVars jobs priced.length →
        ((s.point hfit prices).val (.w t d) = 1 ↔ s.Covers t d)) ∧
      (planModel jobs priced.length prices).objective.eval (s.point hfit prices).val =
        s.cost prices) ∧
    ∃ s : Assignment jobs priced.length, assignJobs lib jobs priced = s.result hfit ∧
      ∀ s' : Assignment jobs priced.length, s.cost prices ≤ s'.cost prices := by
  subst hprices
  refine ⟨Assignment.point_bijective hfit _, fun s => ⟨?_, ?_, s.objective_encode hfit⟩, ?_⟩
  · intro j t
    change s.encode (.x j t) = 1 ↔ s.start j = t
    rw [Assignment.encode_x, ite_eq_left_iff]
    simp only [zero_ne_one, imp_false, not_not]
  · intro t d hw
    have hd := (mem_planVars_w.1 hw).1
    change (if 1 ≤ d ∧ s.Covers t d then (1 : Rat) else 0) = 1 ↔ s.Covers t d
    rw [ite_eq_left_iff]
    simp only [hd, true_and, zero_ne_one, imp_false, not_not]
  · obtain ⟨ρ, hρ, hopt⟩ := hsolve
    exact exists_cheapest_result hfit hρ hopt

def sampleJob : Job := ⟨"ns", "a", 3600, 0, 1⟩

def longJob : Job := ⟨"ns", "long", 86400, 1, 2⟩

def samplePool : List PricedWindow := [⟨0, 0, 0, 5⟩, ⟨0, 0, 30, -3⟩]

def dipPool : List PricedWindow := [⟨0, 0, 0, 1⟩, ⟨0, 0, 30, 9⟩, ⟨0, 1, 0, -2⟩, ⟨0, 1, 30, 3⟩]

theorem samplePair_fit : JobsFit [sampleJob, longJob] dipPool.length := by
  intro job hjob
  rcases List.mem_pair.1 hjob with rfl | rfl <;> decide

/-- Both jobs start at 01:00, and the longer one's window covers the other. -/
def atOne : Assignment [sampleJob, longJob] dipPool.length := ⟨fun _ => 2, by decide⟩

theorem planModel_exact_sample :
    (atOne.point samplePair_fit [1, 9, -2, 3]).val (.w 2 2) = 1 ∧
      (planModel [sampleJob, longJob] dipPool.length [1, 9, -2, 3]).objective.eval
        (atOne.point samplePair_fit [1, 9, -2, 3]).val = 1 ∧
      ∃ s : Assignment [sampleJob, longJob] dipPool.length,
        assignJobs ⟨exactSolve, fun _ => ""⟩ [sampleJob, longJob] dipPool =
          s.result samplePair_fit ∧
        s.cost [1, 9, -2, 3] ≤ 1 := by
  obtain ⟨-, hpoint, s, hs, hle⟩ := planModel_exact ⟨exactSolve, fun _ => ""⟩
    [sampleJob, longJob] dipPool [1, 9, -2, 3] rfl samplePair_fit (exactSolve_of_fit samplePair_fit _)
  obtain ⟨-, hwindow, hobjective⟩ := hpoint atOne
  have hcost : atOne.cost [1, 9, -2, 3] = 1 := by decide +kernel
  refine ⟨(hwindow 2 2 (by decide)).2 ⟨1, by decide, rfl⟩, hobjective.trans hcost, s, hs, ?_⟩
  exact (hle atOne).trans_eq hcost

end Gridshift
