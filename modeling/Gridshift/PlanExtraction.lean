import Gridshift.PlanOptimality
import Gridshift.Threshold

namespace Gridshift
open BinaryProgram Sorting Threshold
set_option autoImplicit true

theorem fireFloor_eq {intervalSecs : Nat} (h : -2 ^ 63 ≤ lastFire + (intervalSecs : Int))
    (h' : lastFire + (intervalSecs : Int) < 2 ^ 63) :
    fireFloor lastFire intervalSecs = lastFire + intervalSecs := by
  rw [fireFloor, toI64_add_toI64]
  exact toI64_eq h h'

theorem earliestEligibleIndex_some (priced : List PricedWindow) (lastFire : Int)
    (intervalSecs : Nat) (tz : Tz) :
    earliestEligibleIndex priced (some lastFire) intervalSecs tz =
      firstAtLeast (fun w => slotEpoch w tz) (fireFloor lastFire intervalSecs) priced := by
  rw [firstAtLeast, List.findIdx_eq_getD_findIdx?]
  rfl

/-- Slots in strictly increasing order of their instants. -/
def Chronological (priced : List PricedWindow) (tz : Tz) : Prop :=
  priced.Pairwise fun w w' => slotEpoch w tz < slotEpoch w' tz

instance : Decidable (Chronological priced tz) :=
  inferInstanceAs (Decidable (List.Pairwise _ _))

/-- In a chronological pool the eligible slots are a suffix. -/
theorem Chronological.eligible_iff (h : Chronological priced tz) (ht : t < priced.length) :
    earliestEligibleIndex priced (some lastFire) intervalSecs tz ≤ t ↔
      fireFloor lastFire intervalSecs ≤ slotEpoch priced[t] tz := by
  rw [earliestEligibleIndex_some]
  exact firstAtLeast_le_iff_of_pairwise h _ ⟨t, ht⟩

theorem pickSlot_legal (h : pickSlot jobs nSlots solution j = some t) :
    (jobs.get j).LegalStart nSlots t := by
  have hv := List.find?_some h
  cases hx : xVar jobs nSlots j t with
  | none =>
    simp only [hx] at hv
    cases hv
  | some v => exact (xVar_eq_some_iff.1 hx).1

theorem pickSlot_high (h : pickSlot jobs nSlots solution j = some t) :
    (solution (.x j t)).gt (1 / 2) = true := by
  have hv := List.find?_some h
  cases hx : xVar jobs nSlots j t with
  | none =>
    simp only [hx] at hv
    cases hv
  | some v =>
    obtain ⟨_, rfl⟩ := xVar_eq_some_iff.1 hx
    simpa only [hx] using hv

theorem pickSlot_eq_of_unique {t : Fin nSlots} (hl : (jobs.get j).LegalStart nSlots t)
    (hhigh : (solution (.x j t)).gt (1 / 2) = true)
    (huniq : ∀ t' : Fin nSlots, (jobs.get j).LegalStart nSlots t' →
      (solution (.x j t')).gt (1 / 2) = true → t' = t) :
    pickSlot jobs nSlots solution j = some t := by
  cases h : pickSlot jobs nSlots solution j with
  | none =>
    have hno := List.find?_eq_none.1 h t (List.mem_finRange t)
    simp only [xVar_eq_some_iff.2 ⟨hl, rfl⟩] at hno
    exact absurd hhigh hno
  | some t' => rw [huniq t' (pickSlot_legal h) (pickSlot_high h)]

theorem extract_ref (jobs : List Job) (priced : List PricedWindow) (solution : Var → F64)
    (j : Fin jobs.length) :
    Sum.elim ScheduleAssignment.scheduleRef SkippedSchedule.ref (extract jobs priced solution j) =
      (jobs.get j).ref := by
  rw [extract]
  split <;> rfl

theorem assignJobs_nil (lib : Libraries) (priced : List PricedWindow) :
    assignJobs lib [] priced = ⟨[], []⟩ := by
  rw [assignJobs]
  split <;> rfl

theorem assignJobs_perm (lib : Libraries) (jobs : List Job) (priced : List PricedWindow) :
    ((assignJobs lib jobs priced).assignments.map ScheduleAssignment.scheduleRef ++
      (assignJobs lib jobs priced).skipped.map SkippedSchedule.ref).Perm (jobs.map Job.ref) := by
  have hrefs (solution : Var → F64) :
      ((List.finRange jobs.length).map (extract jobs priced solution)).map
        (Sum.elim ScheduleAssignment.scheduleRef SkippedSchedule.ref) = jobs.map Job.ref := by
    have href := congrArg (List.map Job.ref) (List.map_getElem_finRange jobs)
    rw [List.map_map] at href ⊢
    exact (List.map_congr_left fun j _ => extract_ref jobs priced solution j).trans href
  rw [assignJobs]
  split
  · rw [List.map_nil, List.nil_append, List.map_map]
    exact .refl _
  · rename_i solution _
    exact hrefs solution ▸ split_perm _ _ _

theorem assignJobs_eq (hs : lib.solve (planModel jobs priced.length
      (priced.map PricedWindow.pricePPerKwh)) = .ok solution)
    {start : Fin jobs.length → Fin priced.length}
    (hp : ∀ j, pickSlot jobs priced.length solution j = some (start j)) :
    assignJobs lib jobs priced = ⟨(List.finRange jobs.length).map fun j =>
      ⟨(jobs.get j).ref, (priced.get (start j)).toChosen, (jobs.get j).intervalSecs⟩, []⟩ := by
  have hall (js : List (Fin jobs.length)) :
      lefts (js.map (extract jobs priced solution)) = js.map (fun j =>
        ⟨(jobs.get j).ref, (priced.get (start j)).toChosen, (jobs.get j).intervalSecs⟩) ∧
      rights (js.map (extract jobs priced solution)) = [] := by
    induction js with
    | nil => exact ⟨rfl, rfl⟩
    | cons j js ih =>
      have he : extract jobs priced solution j =
          .inl ⟨(jobs.get j).ref, (priced.get (start j)).toChosen, (jobs.get j).intervalSecs⟩ := by
        rw [extract, hp j]
      rw [List.map_cons, he, lefts_inl, rights_inl, ih.1, ih.2]
      exact ⟨rfl, rfl⟩
  rw [assignJobs, hs]
  simp only [hall]

theorem mem_assignJobs (h : a ∈ (assignJobs lib jobs priced).assignments) :
    ∃ j : Fin jobs.length, ∃ t : Fin priced.length, (jobs.get j).LegalStart priced.length t ∧
      a = ⟨(jobs.get j).ref, (priced.get t).toChosen, (jobs.get j).intervalSecs⟩ := by
  rw [assignJobs] at h
  split at h
  · cases h
  · rename_i solution _
    obtain ⟨c, hc, ha⟩ := List.mem_filterMap.1 h
    obtain ⟨j, _, rfl⟩ := List.mem_map.1 hc
    cases hp : pickSlot jobs priced.length solution j with
    | none =>
      rw [extract, hp] at ha
      cases ha
    | some t =>
      rw [extract, hp] at ha
      cases ha
      exact ⟨j, t, pickSlot_legal hp, rfl⟩

end Gridshift
