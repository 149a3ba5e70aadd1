import Gridshift.AnsweredPlan

namespace Gridshift
open BinaryProgram
set_option autoImplicit true

/-- One slot starts exactly a slot length after another. -/
def Follows (tz : Tz) (slotMins : Nat) (w w' : PricedWindow) : Prop :=
  slotEpoch w' tz = slotEpoch w tz + slotMins * 60

instance : Decidable (Follows tz slotMins w w') := inferInstanceAs (Decidable (_ = _))

/-- All slots of a stretch of time in order, as a provider promises them for its days. -/
def Gapless (priced : List PricedWindow) (tz : Tz) (slotMins : Nat) : Prop :=
  priced.IsChain (Follows tz slotMins)

instance : Decidable (Gapless priced tz slotMins) := inferInstanceAs (Decidable (List.IsChain _ _))

/-- Slots in order and at least a slot length apart. -/
def Spaced (priced : List PricedWindow) (tz : Tz) (slotMins : Nat) : Prop :=
  priced.Pairwise fun w w' => slotEpoch w tz + slotMins * 60 ≤ slotEpoch w' tz

instance : Decidable (Spaced priced tz slotMins) := inferInstanceAs (Decidable (List.Pairwise _ _))

/-- Steps of at least a length are steps of just that length when the whole way is no longer. -/
theorem isChain_eq_iff {f : α → Int} {gap : Int} {a : α} {l : List α}
    (h : (a :: l).IsChain fun x y => f x + gap ≤ f y) :
    f a + l.length * gap ≤ f ((a :: l).getLast (List.cons_ne_nil a l)) ∧
      ((a :: l).IsChain (fun x y => f y = f x + gap) ↔
        f ((a :: l).getLast (List.cons_ne_nil a l)) = f a + l.length * gap) := by
  induction l generalizing a with
  | nil => simp
  | cons b l ih =>
    obtain ⟨hstep, htail⟩ := List.isChain_cons_cons.1 h
    obtain ⟨hle, hiff⟩ := ih htail
    rw [List.isChain_cons_cons, hiff, List.getLast_cons_cons, List.length_cons, Nat.cast_succ,
      add_mul, one_mul]
    constructor
    · omega
    · constructor
      · rintro ⟨hb, hlast⟩
        omega
      · intro hlast
        omega

def slotsFrom (priced : List PricedWindow) (t d : Nat) : List PricedWindow :=
  (priced.drop t).take d

theorem slotsFrom_eq_cons {priced : List PricedWindow} {t : Fin priced.length}
    (hd : t + (d + 1) ≤ priced.length) :
    ∃ l, slotsFrom priced t (d + 1) = priced.get t :: l ∧ l.length = d := by
  refine ⟨(priced.drop (t + 1)).take d, ?_, ?_⟩
  · rw [slotsFrom, List.drop_eq_getElem_cons t.isLt, List.take_succ_cons, List.get_eq_getElem]
  · rw [List.length_take, List.length_drop]
    omega

/-- In a pool of slots at least a slot length apart, some of them in a row leave no gap exactly
when the last starts as many slot lengths after the first. -/
theorem isChain_slotsFrom_iff {priced : List PricedWindow} {t : Fin priced.length}
    (hspaced : Spaced priced tz slotMins) (hd : t + (d + 1) ≤ priced.length) :
    (slotsFrom priced t (d + 1)).IsChain (Follows tz slotMins) ↔
      ∀ w ∈ (slotsFrom priced t (d + 1)).getLast?,
        slotEpoch w tz = slotEpoch (priced.get t) tz + d * (slotMins * 60) := by
  have hchain := ((hspaced.sublist (List.drop_sublist t _)).sublist
    (List.take_sublist (d + 1) _)).isChain
  obtain ⟨l, hl, rfl⟩ := slotsFrom_eq_cons hd
  rw [show (priced.drop t).take (l.length + 1) = slotsFrom priced t (l.length + 1) from rfl,
    hl] at hchain
  rw [hl, List.getLast?_eq_some_getLast (List.cons_ne_nil _ l)]
  simp only [Option.mem_def, Option.some.injEq, forall_eq']
  exact (isChain_eq_iff (f := fun w => slotEpoch w tz) hchain).2

theorem mem_planObjective :
    (Var.w t d, price) ∈ planObjective jobs nSlots prices ↔
      1 ≤ d ∧ d ≤ maxDur jobs ∧ t + d ≤ nSlots ∧ price = prices.getD (t + d - 1) 0 := by
  simp only [planObjective, List.mem_flatMap, List.mem_range, List.mem_filterMap,
    List.mem_range'_1, Option.map_eq_some_iff, wVar_eq_some_iff, Prod.mk.injEq]
  constructor
  · rintro ⟨t', ht', d', hd', v, ⟨hn, rfl⟩, he, rfl⟩
    cases he
    exact ⟨by omega, by omega, hn, rfl⟩
  · rintro ⟨hd, hm, hn, rfl⟩
    exact ⟨t, by omega, d, by omega, _, ⟨hn, rfl⟩, rfl, rfl⟩

section Charged
variable {schedules : List ScheduleInfo} {scheduleDurations : ScheduleRef → Option Nat}
  {priced : List PricedWindow} {tz : Tz} {slotMins : Nat}

/-- The solution pays, for a window at slot `t`, the prices of the `d` positions from there on. -/
def AnsweredPlan.Charged (p : AnsweredPlan schedules scheduleDurations priced tz slotMins)
    (t d : Nat) : Prop :=
  ∀ i < d, p.ρ (.w t (i + 1)) = 1 ∧ ∃ w ∈ priced[t + i]?,
    (.w t (i + 1), w.pricePPerKwh) ∈
      (planModel p.jobs priced.length (priced.map PricedWindow.pricePPerKwh)).objective

/-- An assignment that the solution encodes is charged for each of its jobs to the end. -/
theorem AnsweredPlan.charged (p : AnsweredPlan schedules scheduleDurations priced tz slotMins)
    {s : Assignment p.jobs priced.length}
    (hs : ∀ v ∈ planVars p.jobs priced.length, p.ρ v = s.encode v) (j : Fin p.jobs.length) :
    p.Charged (s.start j) (p.jobs.get j).durationSlots := by
  intro i hi
  have hcovers : s.Covers (s.start j) (i + 1) := ⟨j, hi, rfl⟩
  have hslots := hcovers.le_slots
  have hlt : s.start j + i < priced.length := by omega
  have hone : p.ρ (.w (s.start j) (i + 1)) = 1 := by
    rw [hs _ (mem_planVars_w.2 ⟨Nat.le_add_left 1 i, hcovers.le_maxDur, hslots⟩)]
    exact Assignment.encode_w_of_covers (Nat.le_add_left 1 i) hcovers
  refine ⟨hone, priced[s.start j + i], List.getElem?_eq_getElem hlt, ?_⟩
  apply mem_planObjective.2 ⟨Nat.le_add_left 1 i, hcovers.le_maxDur, hslots, ?_⟩
  rw [show s.start j + (i + 1) - 1 = s.start j + i by omega, List.getD_eq_getElem?_getD,
    List.getElem?_map, List.getElem?_eq_getElem hlt]
  rfl

theorem AnsweredPlan.exists_start
    (p : AnsweredPlan schedules scheduleDurations priced tz slotMins) :
    ∃ start : Fin p.jobs.length → Fin priced.length, ∀ j, p.start j = some (start j) ∧
      (p.jobs.get j).LegalStart priced.length (start j) ∧
      p.Charged (start j) (p.jobs.get j).durationSlots := by
  obtain ⟨s, hs, hstart⟩ := p.exists_assignment
  exact ⟨_, fun j => ⟨hstart j, s.legal j, p.charged hs j⟩⟩

end Charged

def wholePool (priced : List PricedWindow) (slotMins : Nat) : ScheduleRef → Option Nat :=
  fun _ => some (slotMins * priced.length)

theorem placedJobs_wholePool (tz : Tz) (hslot : 1 ≤ slotMins) (hne : priced ≠ []) :
    placedJobs [unfired] (wholePool priced slotMins) priced tz slotMins =
      [⟨"ns", "a", 86400, 0, priced.length⟩] := by
  have hslots : reservedSlots (wholePool priced slotMins) slotMins unfired = priced.length := by
    have hdiv : (slotMins * priced.length) ⌈/⌉ slotMins = priced.length := smul_ceilDiv hslot _
    rw [reservedSlots, wholePool, Option.getD_some, durationSlots, hdiv]
    exact max_eq_left (List.length_pos_iff.2 hne)
  have hreach : Reaches (wholePool priced slotMins) priced tz slotMins unfired := by
    rw [Reaches, hslots]
    exact (Nat.zero_add _).le
  rw [placedJobs, List.filter_cons_of_pos (by simpa using hreach)]
  simp only [List.filter_nil, List.map_cons, List.map_nil, jobOf, hslots]
  rfl

/-- A job as long as the pool starts at its first slot and is charged for all of it. -/
theorem exists_wholePool (tz : Tz) (hslot : 1 ≤ slotMins) (hne : priced ≠ []) :
    ∃ (p : AnsweredPlan [unfired] (wholePool priced slotMins) priced tz slotMins)
        (j : Fin p.jobs.length) (t : Fin priced.length),
      p.Optimal ∧ p.start j = some t ∧ p.Charged t (p.jobs.get j).durationSlots ∧
      slotsFrom priced t (p.jobs.get j).durationSlots = priced := by
  obtain ⟨p, hopt⟩ :=
    AnsweredPlan.exists_optimal [unfired] (wholePool priced slotMins) priced tz slotMins
  have hjobs : p.jobs = [⟨"ns", "a", 86400, 0, priced.length⟩] :=
    placedJobs_wholePool tz hslot hne
  obtain ⟨start, hstart⟩ := p.exists_start
  have hlen : 0 < p.jobs.length := by rw [hjobs]; exact Nat.one_pos
  obtain ⟨hpick, hlegal, hcharged⟩ := hstart ⟨0, hlen⟩
  have hdur : (p.jobs.get ⟨0, hlen⟩).durationSlots = priced.length := by
    simp only [List.get_eq_getElem, hjobs, List.getElem_cons_zero]
  have hzero : (start ⟨0, hlen⟩ : Nat) = 0 := by
    have hend := hlegal.2
    omega
  have hall : slotsFrom priced (start ⟨0, hlen⟩) (p.jobs.get ⟨0, hlen⟩).durationSlots = priced := by
    rw [hdur, slotsFrom, hzero, List.drop_zero, List.take_length]
  exact ⟨p, ⟨0, hlen⟩, start ⟨0, hlen⟩, hopt, hpick, hcharged, hall⟩

/-- A window is charged the prices of the next positions of the pool. They are the slots that the
job runs over, for every job of every plan, exactly when the pool has no gap; and for a single job
in a pool with gaps, exactly when the last of them starts as the job's last slot length does. -/
theorem plan_charges_runs (priced : List PricedWindow) (tz : Tz) (slotMins : Nat)
    (hslot : 1 ≤ slotMins) :
    (∀ schedules scheduleDurations
        (p : AnsweredPlan schedules scheduleDurations priced tz slotMins), p.Optimal →
      ∃ start : Fin p.jobs.length → Fin priced.length,
        p.assignments = some ((List.finRange p.jobs.length).map fun j =>
          ⟨(p.jobs.get j).ref, (priced.get (start j)).toChosen, (p.jobs.get j).intervalSecs⟩) ∧
        ∀ j, p.start j = some (start j) ∧ (p.jobs.get j).LegalStart priced.length (start j) ∧
          p.Charged (start j) (p.jobs.get j).durationSlots) ∧
    (Gapless priced tz slotMins ↔
      ∀ schedules scheduleDurations
          (p : AnsweredPlan schedules scheduleDurations priced tz slotMins), p.Optimal →
        ∀ j t, p.start j = some t →
          (slotsFrom priced t (p.jobs.get j).durationSlots).IsChain (Follows tz slotMins)) ∧
    (Spaced priced tz slotMins → ∀ schedules scheduleDurations
      (p : AnsweredPlan schedules scheduleDurations priced tz slotMins), ∀ j t,
        p.start j = some t →
        ((slotsFrom priced t (p.jobs.get j).durationSlots).IsChain (Follows tz slotMins) ↔
          ∀ w ∈ (slotsFrom priced t (p.jobs.get j).durationSlots).getLast?, slotEpoch w tz =
            slotEpoch (priced.get t) tz +
              ((p.jobs.get j).durationSlots - 1 : Nat) * (slotMins * 60))) := by
  refine ⟨?_, ⟨fun h _ _ p _ j t _ => (h.drop _).take _, fun h => ?_⟩, ?_⟩
  · intro schedules scheduleDurations p _
    obtain ⟨start, hstart⟩ := p.exists_start
    exact ⟨start, p.assignments_eq hslot fun j => (hstart j).1, hstart⟩
  · by_cases hne : priced = []
    · subst hne
      exact .nil
    · obtain ⟨p, j, t, hopt, hpick, -, hall⟩ := exists_wholePool tz hslot hne
      have hchain := h _ _ p hopt j t hpick
      rwa [hall] at hchain
  · intro hspaced schedules scheduleDurations p j t hstart
    have hend := (pickSlot_legal hstart).2
    have hone := (p.fit _ (List.get_mem p.jobs j)).1
    obtain ⟨d, hd⟩ : ∃ d, (p.jobs.get j).durationSlots = d + 1 := ⟨_, (Nat.sub_add_cancel hone).symm⟩
    rw [hd] at hend ⊢
    exact isChain_slotsFrom_iff hspaced hend

section Sample

def gappyPool : List PricedWindow := [⟨19723, 0, 0, 5⟩, ⟨19723, 1, 0, 7⟩]

/-- With 00:30 missing, an hour's job from 00:00 on is charged the price of 01:00. -/
theorem plan_charges_after_gap :
    Spaced gappyPool (WallClock.Zone.fixed 0) 30 ∧
    ∃ (p : AnsweredPlan [unfired] (wholePool gappyPool 30) gappyPool (WallClock.Zone.fixed 0) 30)
        (j : Fin p.jobs.length) (t : Fin gappyPool.length),
      p.Optimal ∧ p.start j = some t ∧ p.Charged t (p.jobs.get j).durationSlots ∧
      slotsFrom gappyPool t (p.jobs.get j).durationSlots = gappyPool ∧
      ¬ (slotsFrom gappyPool t (p.jobs.get j).durationSlots).IsChain
        (Follows (WallClock.Zone.fixed 0) 30) := by
  have hslot : 1 ≤ 30 := by decide
  have hne : gappyPool ≠ [] := by decide
  obtain ⟨p, j, t, hopt, hpick, hcharged, hall⟩ :=
    exists_wholePool (WallClock.Zone.fixed 0) hslot hne
  have hgap : ¬ gappyPool.IsChain (Follows (WallClock.Zone.fixed 0) 30) := by decide
  exact ⟨by decide, p, j, t, hopt, hpick, hcharged, hall, by rwa [hall]⟩

theorem plan_charges_runs_sample :
    ∃ p : AnsweredPlan [unfired] (wholePool samplePool 30) samplePool (WallClock.Zone.fixed 0) 30,
      p.jobs = [⟨"ns", "a", 86400, 0, 2⟩] ∧ p.Optimal ∧ ∀ j t, p.start j = some t →
        (slotsFrom samplePool t (p.jobs.get j).durationSlots).IsChain
          (Follows (WallClock.Zone.fixed 0) 30) := by
  obtain ⟨p, hopt⟩ := AnsweredPlan.exists_optimal [unfired] (wholePool samplePool 30) samplePool
    (WallClock.Zone.fixed 0) 30
  have hgapless : Gapless samplePool (WallClock.Zone.fixed 0) 30 := by decide
  have hchain := (plan_charges_runs samplePool (WallClock.Zone.fixed 0) 30 (by decide)).2.1.1 hgapless
  exact ⟨p, placedJobs_wholePool _ (by decide) (by decide), hopt, hchain _ _ p hopt⟩

end Sample

end Gridshift
