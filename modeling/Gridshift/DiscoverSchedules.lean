import Gridshift.Completion
import Gridshift.Discovery
import Gridshift.Workflow

namespace Gridshift
open Completion Sorting
set_option autoImplicit true

/-- The answers that discovery gets: from the cluster, and from the clock of its machine. -/
structure DiscoveryApi (Calendar : Type) where
  clientFor : String → Except String Unit
  listSchedules : String → String → List (Except ScheduleError String)
  describe : ScheduleRef → Except ScheduleError (ScheduleDescription Calendar)
  systemTime : String → SystemTime

/-- An error that no later attempt at the same listing can mend. -/
def ScheduleError.isPermanent : ScheduleError → Bool
  | .rpc code _ => code = .invalidArgument ∨ code = .notFound ∨ code = .permissionDenied
  | .other _ => false

/-- The ids of a listing, or the first error in it. -/
def listedIds (api : DiscoveryApi Calendar) (input : DiscoverSchedulesInput) :
    Except ScheduleError (List String) :=
  (api.listSchedules input.namespace input.query).mapM id

def describeOne (api : DiscoveryApi Calendar) (input : DiscoverSchedulesInput)
    (scheduleId : String) : ScheduleInfo ⊕ SkippedSchedule :=
  let nowSecs := (epochSecs (api.systemTime input.namespace)).getD 0
  let described := (api.describe ⟨input.namespace, scheduleId⟩).mapError ScheduleError.message
  match probeSchedule nowSecs input.horizonSecs described with
  | .ok (intervalSecs, lastFire) => .inl ⟨input.namespace, scheduleId, intervalSecs, lastFire⟩
  | .error reason => .inr ⟨input.namespace, scheduleId, reason⟩

/-- The describe calls complete in the given order, and only the schedules are sorted after. -/
def discoverSchedules (api : DiscoveryApi Calendar) (slotMins : Nat) (order : Order String)
    (input : DiscoverSchedulesInput) : Except String DiscoverSchedulesResult := do
  api.clientFor input.namespace
  match listedIds api input with
  | .error e =>
    if e.isPermanent then
      return ⟨[], [⟨input.namespace, "", s!"list_schedules: {e.message}"⟩], slotMins⟩
    else .error s!"list_schedules {input.namespace}: {e.message}"
  | .ok ids =>
    let outcomes := (order.run ids).map (describeOne api input)
    return {
      schedules := (lefts outcomes).insertionSort fun a b => a.scheduleId ≤ b.scheduleId
      skipped := rights outcomes
      slotDurationMins := slotMins }

theorem describeOne_ref (api : DiscoveryApi Calendar) (input : DiscoverSchedulesInput)
    (scheduleId : String) :
    Sum.elim ScheduleInfo.ref SkippedSchedule.ref (describeOne api input scheduleId) =
      ⟨input.namespace, scheduleId⟩ := by
  rw [describeOne]
  split
  · rfl
  · rfl

theorem lefts_refs_sublist (cs : List (ScheduleInfo ⊕ SkippedSchedule)) :
    ((lefts cs).map ScheduleInfo.ref).Sublist
      (cs.map (Sum.elim ScheduleInfo.ref SkippedSchedule.ref)) := by
  induction cs with
  | nil => exact .slnil
  | cons c cs ih =>
    cases c with
    | inl s => exact ih.cons_cons _
    | inr s => exact ih.cons _

/-- The schedules that are let through are some of those listed, each once and in their order. -/
theorem described_sublist (api : DiscoveryApi Calendar) (input : DiscoverSchedulesInput)
    (ids : List String) :
    ((lefts (ids.map (describeOne api input))).map ScheduleInfo.ref).Sublist
      (ids.map fun scheduleId => ⟨input.namespace, scheduleId⟩) := by
  have hrefs : Sum.elim ScheduleInfo.ref SkippedSchedule.ref ∘ describeOne api input =
      fun scheduleId => ⟨input.namespace, scheduleId⟩ := funext (describeOne_ref api input)
  have h := lefts_refs_sublist (ids.map (describeOne api input))
  rwa [List.map_map, hrefs] at h

theorem described_ids_nodup (api : DiscoveryApi Calendar) (input : DiscoverSchedulesInput)
    {ids : List String} (hids : ids.Nodup) :
    ((lefts (ids.map (describeOne api input))).map ScheduleInfo.scheduleId).Nodup := by
  have h := (described_sublist api input ids).map ScheduleRef.scheduleId
  rw [List.map_map, List.map_map] at h
  change List.Sublist _ (ids.map id) at h
  rw [List.map_id] at h
  exact h.nodup hids

/-- All that a completion order can show of a namespace is the order of its skips. -/
theorem discoverSchedules_congr (api : DiscoveryApi Calendar) (slotMins : Nat)
    (o o' : Order String) (input : DiscoverSchedulesInput)
    (hids : ∀ ids, listedIds api input = .ok ids → ids.Nodup) (ns : String) :
    discovered (ns, discoverSchedules api slotMins o input) =
      discovered (ns, discoverSchedules api slotMins o' input) ∧
    (discoverySkips (ns, discoverSchedules api slotMins o input)).Perm
      (discoverySkips (ns, discoverSchedules api slotMins o' input)) := by
  simp only [discoverSchedules]
  cases api.clientFor input.namespace with
  | error e => exact ⟨rfl, .refl _⟩
  | ok u =>
    cases hlist : listedIds api input with
    | error e => exact ⟨rfl, .refl _⟩
    | ok ids =>
      have hperm : ((o.run ids).map (describeOne api input)).Perm
          ((o'.run ids).map (describeOne api input)) :=
        ((o.perm ids).trans (o'.perm ids).symm).map _
      have hnodup : (o.run ids).Nodup := (o.perm ids).nodup_iff.2 (hids ids hlist)
      constructor
      · exact insertionSort_eq_of_perm _ ScheduleInfo.scheduleId (fun a b => Iff.rfl)
          (hperm.filterMap _) (described_ids_nodup api input hnodup)
      · exact hperm.filterMap _

theorem discoverSchedules_of_listed (slotMins : Nat) (o : Order String)
    (hclient : api.clientFor input.namespace = .ok ()) (hids : listedIds api input = .ok ids) :
    discoverSchedules api slotMins o input = .ok {
      schedules := (lefts ((o.run ids).map (describeOne api input))).insertionSort fun a b =>
        a.scheduleId ≤ b.scheduleId
      skipped := rights ((o.run ids).map (describeOne api input))
      slotDurationMins := slotMins } := by
  rw [discoverSchedules, hclient, hids]
  rfl

theorem discovered_cases (api : DiscoveryApi Calendar) (slotMins : Nat) (o : Order String)
    (input : DiscoverSchedulesInput) (ns : String) :
    discovered (ns, discoverSchedules api slotMins o input) = [] ∨
    ∃ ids, listedIds api input = .ok ids ∧
      (discovered (ns, discoverSchedules api slotMins o input)).Perm
        (lefts ((o.run ids).map (describeOne api input))) := by
  cases hclient : api.clientFor input.namespace with
  | error e => exact .inl (by rw [discoverSchedules, hclient]; rfl)
  | ok u =>
    cases hids : listedIds api input with
    | error e =>
      simp only [discoverSchedules, hclient, hids]
      cases e.isPermanent with
      | false => exact .inl rfl
      | true => exact .inl rfl
    | ok ids =>
      rw [discoverSchedules_of_listed slotMins o hclient hids]
      exact .inr ⟨ids, rfl, List.perm_insertionSort _ _⟩

theorem discovered_refs_nodup (api : DiscoveryApi Calendar) (slotMins : Nat) (o : Order String)
    (input : DiscoverSchedulesInput) (hids : ∀ ids, listedIds api input = .ok ids → ids.Nodup)
    (ns : String) :
    ((discovered (ns, discoverSchedules api slotMins o input)).map ScheduleInfo.ref).Nodup := by
  rcases discovered_cases api slotMins o input ns with h | ⟨ids, hlist, hperm⟩
  · rw [h]
    exact .nil
  · rw [(hperm.map _).nodup_iff]
    apply (described_sublist api input _).nodup
    apply ((o.perm ids).nodup_iff.2 (hids ids hlist)).map
    intro a b hab
    exact (ScheduleRef.mk.inj hab).2

theorem discovered_namespace {api : DiscoveryApi Calendar}
    (h : s ∈ discovered (ns, discoverSchedules api slotMins o input)) :
    s.namespace = input.namespace := by
  rcases discovered_cases api slotMins o input ns with hnil | ⟨ids, -, hperm⟩
  · rw [hnil] at h
    cases h
  · have href := List.mem_map_of_mem (f := ScheduleInfo.ref) (hperm.mem_iff.1 h)
    obtain ⟨scheduleId, -, hs⟩ := List.mem_map.1 ((described_sublist api input _).mem href)
    exact (ScheduleRef.mk.inj hs).1.symm

theorem slotDurationMins_of_ok
    (h : discoverSchedules api slotMins o input = .ok r) : r.slotDurationMins = slotMins := by
  simp only [discoverSchedules] at h
  obtain ⟨u, -, h⟩ := except_bind_eq_ok_iff.1 h
  cases hids : listedIds api input with
  | error e =>
    rw [hids] at h
    cases hperm : e.isPermanent with
    | false =>
      simp only [hperm] at h
      cases h
    | true =>
      simp only [hperm] at h
      cases h
      rfl
  | ok ids =>
    rw [hids] at h
    cases h
    rfl

end Gridshift
