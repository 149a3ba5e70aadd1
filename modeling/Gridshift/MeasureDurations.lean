import Gridshift.AnsweredPlan
import Gridshift.Completion
import Gridshift.NearestRank
import Gridshift.Workflow

namespace Gridshift
open Completion NearestRank Sorting
set_option autoImplicit true

structure WorkflowExecution where
  startTime : Option SystemTime
  closeTime : Option SystemTime
deriving DecidableEq, Repr

/-- The answers of Temporal visibility about the runs of schedules. -/
structure Visibility where
  clientFor : String → Except String Unit
  listWorkflows : String → String → Nat → List (Except String WorkflowExecution)

/-- The whole seconds that a run took; an item in error or with a time missing is passed over. -/
def runSecs : Except String WorkflowExecution → Option Nat
  | .ok ⟨some start, some close⟩ =>
    if start ≤ close then some ((close - start) / 10 ^ 9 : Int).toNat else none
  | _ => none

def completedRuns (ref : ScheduleRef) : String :=
  s!"TemporalScheduledById = \"{ref.scheduleId}\" AND ExecutionStatus = \"Completed\""

def durationsSecs (vis : Visibility) (ref : ScheduleRef) : List Nat :=
  (vis.listWorkflows ref.namespace (completedRuns ref) 20).filterMap runSecs

def toU32 (n : Nat) : Nat := n % 2 ^ 32

/-- The position of the nearest-rank p95 among `n` sorted samples. -/
def p95Index (n : Nat) : Nat := min ((95 * n) ⌈/⌉ 100 - 1) (n - 1)

/-- The minutes reserved for a schedule with these samples; `none` is a panic. -/
def measuredMins (slotMins : Nat) (durationsSecs : List Nat) : Option Nat :=
  let mins : Option Nat :=
    if durationsSecs.isEmpty then some slotMins
    else (nth durationsSecs (p95Index durationsSecs.length)).bind fun p95Secs =>
      let mins := toU32 (p95Secs ⌈/⌉ 60)
      if slotMins = 0 then none else some (toU32 (mins ⌈/⌉ slotMins * slotMins))
  mins.map fun mins => max mins slotMins

def measureOne (vis : Visibility) (slotMins : Nat) (ref : ScheduleRef) : Option Nat :=
  match vis.clientFor ref.namespace with
  | .error _ => some slotMins
  | .ok () => measuredMins slotMins (durationsSecs vis ref)

/-- The pairs come back in the order in which the queries complete. -/
def measureScheduleDurations (vis : Visibility) (slotMins : Nat) (order : Order ScheduleRef)
    (input : MeasureDurationsInput) : Except String (List (ScheduleRef × Nat)) :=
  ((order.run input.schedules).mapM fun ref =>
    (measureOne vis slotMins ref).map fun mins => (ref, mins)).elim
      (.error "attempt to divide by zero") .ok

/-- The least sample with at least 95% of the samples up to it. -/
def IsP95 (samples : List Nat) (v : Nat) : Prop :=
  IsLeast {w | w ∈ samples ∧ 95 * samples.length ≤ 100 * samples.countP (· ≤ w)} v

/-- The least number of whole slots, at least one, that holds a duration in seconds. -/
def IsReserved (slotMins v m : Nat) : Prop :=
  IsLeast {m | slotMins ∣ m ∧ slotMins ≤ m ∧ v ⌈/⌉ 60 ≤ m} m

theorem p95Index_lt (hn : 0 < n) : p95Index n < n :=
  (min_le_right _ _).trans_lt (Nat.sub_lt hn Nat.one_pos)

theorem p95Index_lt_iff (hn : 0 < n) (hc : c ≤ n) : p95Index n < c ↔ 95 * n ≤ 100 * c := by
  have hle : (95 * n) ⌈/⌉ 100 ≤ n := (ceilDiv_le_iff_le_mul (by decide)).2 (by omega)
  have hpos : 0 < (95 * n) ⌈/⌉ 100 := by
    by_contra h0
    have h := (ceilDiv_le_iff_le_mul (by decide)).1 (Nat.not_lt.1 h0)
    omega
  rw [← ceilDiv_le_iff_le_mul (by decide : 0 < 100), p95Index]
  omega

theorem isP95_iff {samples : List Nat} (hne : samples ≠ []) :
    IsP95 samples v ↔ nth samples (p95Index samples.length) = some v := by
  have hn := List.length_pos_iff.2 hne
  obtain ⟨u, hu⟩ := exists_nth (p95Index_lt hn)
  have hleast : IsP95 samples u := by
    have h := isLeast_nth hu
    rwa [Set.ext fun w => and_congr_right fun _ => p95Index_lt_iff hn List.countP_le_length] at h
  rw [hu, Option.some.injEq]
  constructor
  · exact fun h => hleast.unique h
  · exact fun h => h ▸ hleast

theorem IsP95.ne_nil (h : IsP95 samples v) : samples ≠ [] := List.ne_nil_of_mem h.1.1

theorem exists_isP95 {samples : List Nat} (hne : samples ≠ []) : ∃ v, IsP95 samples v := by
  obtain ⟨v, hv⟩ := exists_nth (p95Index_lt (List.length_pos_iff.2 hne))
  exact ⟨v, (isP95_iff hne).2 hv⟩

theorem IsP95.perm (h : IsP95 samples v) (hperm : samples'.Perm samples) : IsP95 samples' v := by
  have hne : samples' ≠ [] := fun h0 => h.ne_nil (List.nil_perm.1 (h0 ▸ hperm))
  rw [isP95_iff hne, nth_perm hperm, hperm.length_eq]
  exact (isP95_iff h.ne_nil).1 h

theorem IsP95.le_of_raise {l₁ l₂ : List Nat} (h : IsP95 (l₁ ++ x :: l₂) v)
    (h' : IsP95 (l₁ ++ y :: l₂) v') (hxy : x ≤ y) : v ≤ v' := by
  have hv := (isP95_iff h.ne_nil).1 h
  have hv' := (isP95_iff h'.ne_nil).1 h'
  have hlen : (l₁ ++ y :: l₂).length = (l₁ ++ x :: l₂).length := by
    simp only [List.length_append, List.length_cons]
  rw [hlen] at hv'
  exact nth_le_nth (countP_le_of_raise hxy l₁ l₂) hv hv'

/-- Two roundings up, to minutes and then to slots, give the least whole slots that hold it. -/
theorem isReserved_roundUp (hslot : 1 ≤ slotMins) (v : Nat) :
    IsReserved slotMins v (max (v ⌈/⌉ 60 ⌈/⌉ slotMins * slotMins) slotMins) := by
  constructor
  · have hcover : v ⌈/⌉ 60 ≤ slotMins * (v ⌈/⌉ 60 ⌈/⌉ slotMins) :=
      (ceilDiv_le_iff_le_mul hslot).1 le_rfl
    rw [mul_comm] at hcover
    refine ⟨?_, le_max_right _ _, hcover.trans (le_max_left _ _)⟩
    rcases max_choice (v ⌈/⌉ 60 ⌈/⌉ slotMins * slotMins) slotMins with h | h
    · rw [h]
      exact Nat.dvd_mul_left _ _
    · rw [h]
  · intro m hm
    obtain ⟨⟨k, rfl⟩, hle, hcover⟩ := hm
    apply max_le _ hle
    rw [mul_comm slotMins k]
    exact Nat.mul_le_mul_right slotMins ((ceilDiv_le_iff_le_mul hslot).2 hcover)

theorem IsReserved.mono (h : IsReserved slotMins v m) (h' : IsReserved slotMins v' m')
    (hv : v ≤ v') : m ≤ m' := by
  obtain ⟨hdvd, hle, hcover⟩ := h'.1
  have hmins : v ⌈/⌉ 60 ≤ v' ⌈/⌉ 60 :=
    (gc_mul_ceilDiv (α := Nat) (by decide : 0 < 60)).monotone_l hv
  exact h.2 ⟨hdvd, hle, hmins.trans hcover⟩

theorem toU32_of_lt (h : n < 2 ^ 32) : toU32 n = n := Nat.mod_eq_of_lt h

theorem measuredMins_of_isP95 (hslot : 1 ≤ slotMins) (hv : IsP95 samples v)
    (hm : IsReserved slotMins v m) (hlt : m < 2 ^ 32) : measuredMins slotMins samples = some m := by
  have hmax := (isReserved_roundUp hslot v).unique hm
  have hmins : v ⌈/⌉ 60 < 2 ^ 32 := hm.1.2.2.trans_lt hlt
  have hslots : v ⌈/⌉ 60 ⌈/⌉ slotMins * slotMins < 2 ^ 32 :=
    ((le_max_left _ _).trans_eq hmax).trans_lt hlt
  have hempty : samples.isEmpty = false := List.isEmpty_eq_false_iff.2 hv.ne_nil
  simp only [measuredMins, hempty, Bool.false_eq_true, if_false, (isP95_iff hv.ne_nil).1 hv,
    Option.bind_some, if_neg (Nat.ne_of_gt hslot), toU32_of_lt hmins, toU32_of_lt hslots,
    Option.map_some, hmax]

/-- A map collected from pairs that agree on every key has one value for a key, in any order. -/
theorem durationMap_map (f : ScheduleRef → Nat) (refs : List ScheduleRef) (ref : ScheduleRef) :
    durationMap (refs.map fun r => (r, f r)) ref = if ref ∈ refs then some (f ref) else none := by
  rw [durationMap, ← List.map_reverse]
  have hmem : ref ∈ refs ↔ ref ∈ refs.reverse := List.mem_reverse.symm
  simp only [hmem]
  induction refs.reverse with
  | nil => rfl
  | cons r l ih =>
    by_cases h : r = ref
    · subst h
      simp
    · simpa [h, Ne.symm h] using ih

theorem measureOne_isSome (vis : Visibility) (hslot : 1 ≤ slotMins) (ref : ScheduleRef) :
    (measureOne vis slotMins ref).isSome := by
  rw [measureOne]
  cases vis.clientFor ref.namespace with
  | error e => rfl
  | ok u =>
    by_cases hne : durationsSecs vis ref = []
    · simp only [hne, measuredMins, List.isEmpty_nil, if_true, Option.map_some, Option.isSome_some]
    · obtain ⟨v, hv⟩ := exists_nth (p95Index_lt (List.length_pos_iff.2 hne))
      simp only [measuredMins, List.isEmpty_eq_false_iff.2 hne, Bool.false_eq_true, if_false, hv,
        Option.bind_some, if_neg (Nat.ne_of_gt hslot), Option.map_some, Option.isSome_some]

theorem measureScheduleDurations_of_isSome (order : Order ScheduleRef)
    (h : ∀ ref ∈ input.schedules, (measureOne vis slotMins ref).isSome) :
    measureScheduleDurations vis slotMins order input =
      .ok ((order.run input.schedules).map fun ref =>
        (ref, (measureOne vis slotMins ref).getD 0)) := by
  have hpairs : (order.run input.schedules).mapM (fun ref =>
      (measureOne vis slotMins ref).map fun mins => (ref, mins)) =
        some ((order.run input.schedules).map fun ref =>
          (ref, (measureOne vis slotMins ref).getD 0)) := by
    rw [mapM_eq_some_iff, List.map_map]
    apply List.map_congr_left
    intro ref href
    obtain ⟨mins, hmins⟩ := Option.isSome_iff_exists.1 (h ref (order.mem_run.1 href))
    simp only [hmins, Option.map_some, Function.comp_apply, Option.getD_some]
  rw [measureScheduleDurations, hpairs]
  rfl

theorem measured_pairs (order : Order ScheduleRef) (hslot : 1 ≤ slotMins)
    (hmem : ref ∈ input.schedules) (hone : measureOne vis slotMins ref = some m) :
    ∃ pairs, measureScheduleDurations vis slotMins order input = .ok pairs ∧
      (∀ mins, (ref, mins) ∈ pairs ↔ mins = m) ∧ durationMap pairs ref = some m := by
  have hpairs := measureScheduleDurations_of_isSome order
    fun r (_ : r ∈ input.schedules) => measureOne_isSome vis hslot r
  refine ⟨_, hpairs, ?_, ?_⟩
  · intro mins
    simp only [List.mem_map, order.mem_run, Prod.mk.injEq]
    constructor
    · intro hex
      obtain ⟨r, hr, rfl, rfl⟩ := hex
      rw [hone, Option.getD_some]
    · intro hmins
      exact ⟨ref, hmem, rfl, by rw [hone, hmins, Option.getD_some]⟩
  · rw [durationMap_map, if_pos (order.mem_run.2 hmem), hone, Option.getD_some]

theorem IsReserved.durationSlots (h : IsReserved slotMins v m) (hslot : 1 ≤ slotMins) :
    durationSlots m slotMins * slotMins = m := by
  obtain ⟨⟨k, rfl⟩, hle, -⟩ := h.1
  have hk : 1 ≤ k := Nat.pos_of_mul_pos_left (hslot.trans hle)
  have hceil : slotMins * k ⌈/⌉ slotMins = k := smul_ceilDiv (α := Nat) (β := Nat) hslot k
  rw [Gridshift.durationSlots, hceil, max_eq_left hk, mul_comm]

theorem IsReserved.reservedSlots (h : IsReserved slotMins v m) (hslot : 1 ≤ slotMins)
    (hdur : scheduleDurations s.ref = some m) :
    reservedSlots scheduleDurations slotMins s * slotMins = m ∧
      reservedSlots scheduleDurations slotMins s = m / slotMins := by
  have hmins := h.durationSlots hslot
  rw [Gridshift.reservedSlots, hdur, Option.getD_some]
  exact ⟨hmins, Nat.eq_div_of_mul_eq_left (Nat.ne_of_gt hslot) hmins⟩

/-- The minutes measured are the nearest-rank p95 rounded up to slots. A plan made with them has a
job for each schedule that still fits in its pool, and the jobs reserve just those minutes. -/
theorem measured_p95 (vis : Visibility) (order : Order ScheduleRef) (hslot : 1 ≤ slotMins)
    (hmem : ref ∈ input.schedules) (hclient : vis.clientFor ref.namespace = .ok ())
    (hsamples : durationsSecs vis ref = samples) (hne : samples ≠ []) :
    p95Index samples.length < samples.length ∧
    ∃ v m, IsP95 samples v ∧ IsReserved slotMins v m ∧ (m < 2 ^ 32 →
      (∃ pairs, measureScheduleDurations vis slotMins order input = .ok pairs ∧
        (∀ mins, (ref, mins) ∈ pairs ↔ mins = m) ∧
        ∀ lib schedules priced tz nowSecs,
          (∃ plan, planAssignments lib schedules (durationMap pairs) priced tz nowSecs slotMins =
              some plan ∧
            plan.assignments = (assignJobs lib
              (placedJobs schedules (durationMap pairs) priced tz slotMins) priced).assignments) ∧
          (∀ job ∈ placedJobs schedules (durationMap pairs) priced tz slotMins, job.ref = ref →
            job.durationSlots * slotMins = m) ∧
          ∀ s ∈ schedules, s.ref = ref →
            earliestEligibleIndex priced s.lastFireSecs s.intervalSecs tz + m / slotMins ≤
              priced.length →
            ∃ job ∈ placedJobs schedules (durationMap pairs) priced tz slotMins, job.ref = ref ∧
              job.minStart = earliestEligibleIndex priced s.lastFireSecs s.intervalSecs tz ∧
              job.durationSlots * slotMins = m) ∧
      (∀ samples', samples'.Perm samples → measuredMins slotMins samples' = some m) ∧
      ∀ l₁ x l₂ y v' m', samples = l₁ ++ x :: l₂ → x ≤ y → IsP95 (l₁ ++ y :: l₂) v' →
        IsReserved slotMins v' m' → m' < 2 ^ 32 →
          measuredMins slotMins (l₁ ++ y :: l₂) = some m' ∧ m ≤ m') := by
  obtain ⟨v, hv⟩ := exists_isP95 hne
  have hm := isReserved_roundUp hslot v
  refine ⟨p95Index_lt (List.length_pos_iff.2 hne), v, _, hv, hm, ?_⟩
  intro hlt
  have hmins := measuredMins_of_isP95 hslot hv hm hlt
  refine ⟨?_, ?_, ?_⟩
  · have hone : measureOne vis slotMins ref = measuredMins slotMins samples := by
      rw [measureOne, hclient, hsamples]
    obtain ⟨pairs, hpairs, hvalue, hlookup⟩ := measured_pairs order hslot hmem (hone.trans hmins)
    refine ⟨pairs, hpairs, hvalue, ?_⟩
    intro lib schedules priced tz nowSecs
    refine ⟨planAssignments_placed lib nowSecs hslot, ?_, ?_⟩
    · intro job hjob href
      obtain ⟨s, -, -, rfl⟩ := mem_placedJobs.1 hjob
      have hsame : s.ref = ref := href
      subst hsame
      exact (hm.reservedSlots hslot hlookup).1
    · intro s hs href hend
      subst href
      obtain ⟨hslots, hdiv⟩ := hm.reservedSlots hslot hlookup
      rw [← hdiv] at hend
      exact ⟨_, mem_placedJobs.2 ⟨s, hs, hend, rfl⟩, rfl, rfl, hslots⟩
  · intro samples' hperm
    exact measuredMins_of_isP95 hslot (hv.perm hperm) hm hlt
  · intro l₁ x l₂ y v' m' hsplit hxy hv' hm' hlt'
    subst hsplit
    exact ⟨measuredMins_of_isP95 hslot hv' hm' hlt', hm.mono hm' (hv.le_of_raise hv' hxy)⟩

section Sample

/-- Nineteen runs of 31 minutes and one of three hours. -/
def oneSlowRun : Visibility where
  clientFor _ := .ok ()
  listWorkflows _ _ _ := .ok ⟨some 0, some (10800 * 10 ^ 9)⟩ ::
    List.replicate 19 (.ok ⟨some 0, some (1860 * 10 ^ 9)⟩)

def twoSlots : List PricedWindow := [⟨0, 0, 0, 9⟩, ⟨0, 0, 30, 4⟩]

theorem measured_p95_oneSlowRun :
    ∃ pairs, measureScheduleDurations oneSlowRun 30 .reversed ⟨[⟨"default", "report"⟩]⟩ =
      .ok pairs ∧ (∀ mins, (⟨"default", "report"⟩, mins) ∈ pairs ↔ mins = 60) ∧
      ∃ job ∈ placedJobs [⟨"default", "report", 86400, none⟩] (durationMap pairs) twoSlots
          (WallClock.Zone.fixed 0) 30,
        job.ref = ⟨"default", "report"⟩ ∧ job.durationSlots * 30 = 60 := by
  obtain ⟨-, v, m, hv, hm, hrest⟩ := measured_p95 oneSlowRun (.reversed)
    (by decide : 1 ≤ 30) (by decide : ⟨"default", "report"⟩ ∈ [⟨"default", "report"⟩]) rfl rfl
    (by decide)
  have hp95 : IsP95 (durationsSecs oneSlowRun ⟨"default", "report"⟩) 1860 := by
    rw [isP95_iff (by decide)]
    decide +kernel
  cases hv.unique hp95
  have hreserved : IsReserved 30 1860 60 := isReserved_roundUp (by decide) 1860
  cases hm.unique hreserved
  obtain ⟨⟨pairs, hpairs, hmins, hplan⟩, -⟩ := hrest (by decide)
  obtain ⟨-, -, hplaced⟩ := hplan ⟨exactSolve, fun _ => ""⟩ [⟨"default", "report", 86400, none⟩]
    twoSlots (WallClock.Zone.fixed 0) 0
  obtain ⟨job, hjob, href, -, hslots⟩ := hplaced _ List.mem_cons_self rfl (by decide)
  exact ⟨pairs, hpairs, hmins, job, hjob, href, hslots⟩

end Sample

end Gridshift
