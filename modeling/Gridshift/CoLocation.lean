import Gridshift.PlanExactness

namespace Gridshift
open BinaryProgram
set_option autoImplicit true

/-- What a window of `d` slots from `t` on is charged. -/
def windowCost (prices : List Rat) (t d : Nat) : Rat :=
  ∑ i ∈ Finset.range d, prices.getD (t + i) 0

/-- The job with both the latest first start and the longest duration. -/
def Leads (jobs : List Job) (L : Fin jobs.length) : Prop :=
  ∀ j : Fin jobs.length, (jobs.get j).minStart ≤ (jobs.get L).minStart ∧
    (jobs.get j).durationSlots ≤ (jobs.get L).durationSlots

instance : Decidable (Leads jobs L) := inferInstanceAs (Decidable (∀ _, _))

theorem getD_nonneg {prices : List Rat} (hpos : ∀ p ∈ prices, 0 < p) (k : Nat) :
    0 ≤ prices.getD k 0 := by
  rw [List.getD_eq_getElem?_getD]
  cases h : prices[k]? with
  | none => exact le_rfl
  | some p => exact (hpos p (List.mem_of_getElem? h)).le

theorem windowCost_nonneg {prices : List Rat} (hpos : ∀ p ∈ prices, 0 < p) (t d : Nat) :
    0 ≤ windowCost prices t d :=
  Finset.sum_nonneg fun _ _ => getD_nonneg hpos _

theorem windowCost_mono {prices : List Rat} (hpos : ∀ p ∈ prices, 0 < p) (h : d ≤ d') (t : Nat) :
    windowCost prices t d ≤ windowCost prices t d' :=
  Finset.sum_le_sum_of_subset_of_nonneg (Finset.range_mono h) fun _ _ _ => getD_nonneg hpos _

theorem windowCost_pos {prices : List Rat} (hpos : ∀ p ∈ prices, 0 < p) (hd : 1 ≤ d)
    (ht : t < prices.length) : 0 < windowCost prices t d := by
  have hone : windowCost prices t 1 = prices.getD t 0 := Finset.sum_range_one _
  have hfirst : 0 < prices.getD t 0 := by
    rw [List.getD_eq_getElem _ _ ht]
    exact hpos _ (List.getElem_mem ht)
  rw [← hone] at hfirst
  exact hfirst.trans_le (windowCost_mono hpos hd t)

section Lower
variable {jobs : List Job} {prices : List Rat}

theorem Assignment.durationSlots_le (s : Assignment jobs nSlots) (j : Fin jobs.length) :
    (jobs.get j).durationSlots ≤ s.windowSlots (s.start j) :=
  Finset.le_sup (f := fun j => (jobs.get j).durationSlots)
    (Finset.mem_filter.2 ⟨Finset.mem_univ j, rfl⟩)

theorem Assignment.windowCost_le_cost (hpos : ∀ p ∈ prices, 0 < p) (s : Assignment jobs nSlots)
    (j : Fin jobs.length) :
    windowCost prices (s.start j) (jobs.get j).durationSlots ≤ s.cost prices := by
  have hmem : s.start j ∈ Finset.univ.image s.start :=
    Finset.mem_image_of_mem _ (Finset.mem_univ j)
  apply (windowCost_mono hpos (s.durationSlots_le j) _).trans
  exact Finset.single_le_sum (f := fun t => windowCost prices t (s.windowSlots t))
    (fun t _ => windowCost_nonneg hpos t _) hmem

/-- A second start slot in use costs something, as prices are positive. -/
theorem Assignment.windowCost_lt_cost (hpos : ∀ p ∈ prices, 0 < p)
    (hlen : prices.length = nSlots) (hfit : JobsFit jobs nSlots) (s : Assignment jobs nSlots)
    {i j : Fin jobs.length} (hne : s.start i ≠ s.start j) :
    windowCost prices (s.start j) (jobs.get j).durationSlots < s.cost prices := by
  have hmem (k : Fin jobs.length) : s.start k ∈ Finset.univ.image s.start :=
    Finset.mem_image_of_mem _ (Finset.mem_univ k)
  have hother : 0 < windowCost prices (s.start i) (s.windowSlots (s.start i)) :=
    windowCost_pos hpos ((hfit.get i).1.trans (s.durationSlots_le i))
      (hlen ▸ hfit.lt_of_legal i (s.legal i))
  have hsum : windowCost prices (s.start j) (s.windowSlots (s.start j)) +
      ∑ t ∈ (Finset.univ.image s.start).erase (s.start j),
        windowCost prices t (s.windowSlots t) = s.cost prices :=
    Finset.add_sum_erase _ (fun t => windowCost prices t (s.windowSlots t)) (hmem j)
  have hrest := Finset.single_le_sum (f := fun t => windowCost prices t (s.windowSlots t))
    (fun t _ => windowCost_nonneg hpos t _) (Finset.mem_erase.2 ⟨hne, hmem i⟩)
  have hown := windowCost_mono hpos (s.durationSlots_le j) (s.start j)
  linarith

end Lower

section Together
variable {jobs : List Job} {L : Fin jobs.length}

theorem Leads.legal (hL : Leads jobs L) (ht : (jobs.get L).LegalStart nSlots t)
    (j : Fin jobs.length) : (jobs.get j).LegalStart nSlots t := by
  obtain ⟨hmin, hdur⟩ := hL j
  obtain ⟨hlo, hhi⟩ := ht
  exact ⟨hmin.trans hlo, (Nat.add_le_add_left hdur t).trans hhi⟩

/-- Every job moved to a legal start of the leading one. -/
def Leads.together (hL : Leads jobs L) (ht : (jobs.get L).LegalStart nSlots t) :
    Assignment jobs nSlots where
  start _ := t
  legal j := hL.legal ht j

theorem Leads.cost_together (hL : Leads jobs L) (ht : (jobs.get L).LegalStart nSlots t)
    (prices : List Rat) :
    (hL.together ht).cost prices = windowCost prices t (jobs.get L).durationSlots := by
  have himage : Finset.univ.image (hL.together ht).start = {t} :=
    Finset.image_const ⟨L, Finset.mem_univ L⟩ t
  have hslots : (hL.together ht).windowSlots t = (jobs.get L).durationSlots := by
    apply le_antisymm
    · exact Finset.sup_le fun j _ => (hL j).2
    · exact (hL.together ht).durationSlots_le L
  rw [Assignment.cost, himage, Finset.sum_singleton, hslots, windowCost]

/-- A cheapest assignment puts every job where the leading one is cheapest on its own. -/
theorem Leads.start_eq (hL : Leads jobs L) {prices : List Rat} (hpos : ∀ p ∈ prices, 0 < p)
    (hlen : prices.length = nSlots) (hfit : JobsFit jobs nSlots) (s : Assignment jobs nSlots)
    (hmin : ∀ s' : Assignment jobs nSlots, s.cost prices ≤ s'.cost prices)
    (j : Fin jobs.length) : s.start j = s.start L := by
  by_contra hne
  have hlt := s.windowCost_lt_cost hpos hlen hfit hne
  have hle := hmin (hL.together (s.legal L))
  rw [hL.cost_together] at hle
  exact absurd hle (not_le.2 hlt)

end Together

theorem assignJobs_of_same (hs : lib.solve (planModel jobs priced.length
      (priced.map PricedWindow.pricePPerKwh)) = .ok solution) {t : Fin priced.length}
    (hp : ∀ j, pickSlot jobs priced.length solution j = some t) :
    assignJobs lib jobs priced = ⟨jobs.map fun job =>
      ⟨job.ref, (priced.get t).toChosen, job.intervalSecs⟩, []⟩ := by
  have hjobs := congrArg (List.map fun job : Job =>
    (⟨job.ref, (priced.get t).toChosen, job.intervalSecs⟩ : ScheduleAssignment))
      (List.map_getElem_finRange jobs)
  rw [List.map_map] at hjobs
  rw [assignJobs_eq hs hp, ← hjobs]
  rfl

/-- With positive prices, one job that leads all others takes every job along to the start where
its own window is cheapest, and that window is the whole cost. -/
theorem plan_co_locates (lib : Libraries) (jobs : List Job) (priced : List PricedWindow)
    (prices : List Rat) (ρ : Var → Rat) (L : Fin jobs.length)
    (hprices : prices = priced.map PricedWindow.pricePPerKwh) (hpos : ∀ p ∈ prices, 0 < p)
    (hfit : JobsFit jobs priced.length) (hL : Leads jobs L)
    (hsolve : lib.solve (planModel jobs priced.length prices) = .ok (F64.finite ∘ ρ))
    (hopt : (planModel jobs priced.length prices).IsOptimal ρ) :
    ∃ t : Fin priced.length, (jobs.get L).LegalStart priced.length t ∧
      (∀ j, pickSlot jobs priced.length (F64.finite ∘ ρ) j = some t) ∧
      assignJobs lib jobs priced = ⟨jobs.map fun job =>
        ⟨job.ref, (priced.get t).toChosen, job.intervalSecs⟩, []⟩ ∧
      (∀ t', (jobs.get L).LegalStart priced.length t' →
        windowCost prices t (jobs.get L).durationSlots ≤
          windowCost prices t' (jobs.get L).durationSlots) ∧
      (planModel jobs priced.length prices).objective.eval ρ =
        windowCost prices t (jobs.get L).durationSlots := by
  have hlen : prices.length = priced.length := by rw [hprices, List.length_map]
  obtain ⟨s, hs⟩ := exists_decode hopt.1
  have hcost : (planModel jobs priced.length prices).objective.eval ρ = s.cost prices := by
    rw [eval_congr_vars hs, s.objective_encode hfit]
  have hmin (s' : Assignment jobs priced.length) : s.cost prices ≤ s'.cost prices := by
    have hle := hopt.2 s'.encode (s'.feasible_encode hfit)
    rwa [hcost, s'.objective_encode hfit] at hle
  have hstart := hL.start_eq hpos hlen hfit s hmin
  have hbest : s.cost prices = windowCost prices (s.start L) (jobs.get L).durationSlots := by
    apply le_antisymm
    · exact (hmin (hL.together (s.legal L))).trans_eq (hL.cost_together _ _)
    · exact s.windowCost_le_cost hpos L
  have hpick (j : Fin jobs.length) : pickSlot jobs priced.length (F64.finite ∘ ρ) j =
      some ⟨s.start L, hfit.lt_of_legal L (s.legal L)⟩ := by
    rw [pickSlot_of_decode hfit hs j]
    exact congrArg some (Fin.ext (hstart j))
  refine ⟨_, s.legal L, hpick, ?_, ?_, hcost.trans hbest⟩
  · exact assignJobs_of_same (hprices ▸ hsolve) hpick
  · intro t' ht'
    rw [← hL.cost_together ht', ← hbest]
    exact hmin _

section Sample

theorem plan_co_locates_sample :
    ∃ t : Fin 4, (assignJobs ⟨exactSolve, fun _ => ""⟩ [sampleJob, longJob]
        [⟨0, 0, 0, 1⟩, ⟨0, 0, 30, 9⟩, ⟨0, 1, 0, 2⟩, ⟨0, 1, 30, 3⟩]).assignments.map
          ScheduleAssignment.scheduleRef = [⟨"ns", "a"⟩, ⟨"ns", "long"⟩] ∧
      windowCost [1, 9, 2, 3] t 2 ≤ 5 := by
  obtain ⟨ρ, hρ, hopt⟩ := exactSolve_of_fit samplePair_fit [1, 9, 2, 3]
  obtain ⟨t, -, -, hplan, hmin, -⟩ := plan_co_locates ⟨exactSolve, fun _ => ""⟩
    [sampleJob, longJob] [⟨0, 0, 0, 1⟩, ⟨0, 0, 30, 9⟩, ⟨0, 1, 0, 2⟩, ⟨0, 1, 30, 3⟩] [1, 9, 2, 3] ρ
    1 rfl (by decide) samplePair_fit (by decide) hρ hopt
  refine ⟨t, by rw [hplan]; rfl, (hmin 2 (by decide)).trans ?_⟩
  norm_num [windowCost, longJob, Finset.sum_range_succ]

end Sample

end Gridshift
