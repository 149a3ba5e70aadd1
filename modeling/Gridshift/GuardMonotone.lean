import Gridshift.Discovery
import Gridshift.PlanExtraction
import Gridshift.Threshold

namespace Gridshift
open Threshold
set_option autoImplicit true

/-- A last run and an interval that discovery can emit. -/
structure Cadence where
  lastFireSecs : Option Int
  intervalSecs : Nat
  lastFire_mem : ∀ l ∈ lastFireSecs, 0 ≤ l ∧ l < 2 ^ 63
  interval_mem : 0 < intervalSecs ∧ intervalSecs < 2 ^ 63

/-- A later last run, none being earlier than all, and a longer interval. -/
instance : LE Cadence where
  le c c' := (∀ l ∈ c.lastFireSecs, ∃ l' ∈ c'.lastFireSecs, l ≤ l') ∧
    c.intervalSecs ≤ c'.intervalSecs

/-- One interval after the last run, before it is wrapped into an `i64`. -/
def Cadence.due (c : Cadence) : Option Int := c.lastFireSecs.map fun l => l + c.intervalSecs

def Cadence.index (c : Cadence) (priced : List PricedWindow) (tz : Tz) : Nat :=
  earliestEligibleIndex priced c.lastFireSecs c.intervalSecs tz

theorem lastFireSecs_single (h : 0 ≤ l) : lastFireSecs [some (l * 10 ^ 9)] = some l := by
  have hsecs : epochSecs (l * 10 ^ 9) = some l := by
    rw [epochSecs, if_pos (mul_nonneg h (by norm_num)), Int.mul_ediv_cancel _ (by norm_num)]
  simp only [lastFireSecs, List.filterMap_cons, id_eq, List.filterMap_nil, hsecs,
    List.max?_singleton]

/-- What discovery emits, where it fits an `i64`, are just the cadences. -/
theorem exists_probe_iff (Calendar : Type) {lastFire : Option Int} (nowSecs horizonSecs : Int)
    (hsecs : secs < 2 ^ 63) (hlast : ∀ l ∈ lastFire, l < 2 ^ 63) :
    (∃ desc : ScheduleDescription Calendar,
      probeSchedule nowSecs horizonSecs (.ok desc) = .ok (secs, lastFire)) ↔
    ∃ c : Cadence, c.intervalSecs = secs ∧ c.lastFireSecs = lastFire := by
  constructor
  · rintro ⟨desc, h⟩
    obtain ⟨-, hpos, heq, -⟩ := (probeSchedule_ok_iff _ _ _).1 h
    refine ⟨⟨lastFire, secs, fun l hl => ⟨?_, hlast l hl⟩, hpos, hsecs⟩, rfl, rfl⟩
    obtain ⟨⟨t, -, ht, rfl⟩, -⟩ := mem_lastFireSecs_iff.1 (heq ▸ hl)
    exact Int.ediv_nonneg ht (by norm_num)
  · rintro ⟨c, rfl, rfl⟩
    refine ⟨⟨[c.lastFireSecs.map fun l => l * 10 ^ 9], [], some ⟨[⟨some ⟨c.intervalSecs, 0⟩,
      none⟩], [], [], none, none, none, ""⟩⟩,
      (probeSchedule_ok_iff _ _ _).2 ⟨?_, c.interval_mem.1, ?_, ?_⟩⟩
    · simp only [firstIntervalSecs, Option.bind_some, List.head?_cons, Option.map_some,
        Option.getD_some, Nat.cast_nonneg, max_eq_left, Int.toNat_natCast]
    · cases hl : c.lastFireSecs with
      | none => rfl
      | some l => exact (lastFireSecs_single (c.lastFire_mem l hl).1).symm
    · exact fun _ nf hnf => absurd hnf (Option.not_mem_none nf)

theorem Cadence.mem_due_iff {c : Cadence} :
    u ∈ c.due ↔ ∃ l ∈ c.lastFireSecs, l + c.intervalSecs = u := by
  simp only [Cadence.due, Option.mem_def, Option.map_eq_some_iff]

theorem Cadence.due_mem {c : Cadence} (h : u ∈ c.due) : 0 < u ∧ u < 2 ^ 64 := by
  obtain ⟨l, hl, rfl⟩ := Cadence.mem_due_iff.1 h
  have hlast := c.lastFire_mem l hl
  have hinterval := c.interval_mem
  omega

theorem Cadence.le_due {c c' : Cadence} (h : c ≤ c') (hu : u ∈ c.due) : ∃ u' ∈ c'.due, u ≤ u' := by
  obtain ⟨l, hl, rfl⟩ := Cadence.mem_due_iff.1 hu
  obtain ⟨l', hl', hle⟩ := h.1 l hl
  refine ⟨_, Cadence.mem_due_iff.2 ⟨l', hl', rfl⟩, ?_⟩
  have hinterval := h.2
  omega

theorem toI64_of_wrap (h : 2 ^ 63 ≤ u) (h' : u < 2 ^ 64) : toI64 u = u - 2 ^ 64 := by
  have hshift : toI64 (u - 2 ^ 64) = toI64 u := Int.sub_bmod_right u (2 ^ 64)
  rw [← hshift]
  exact toI64_eq (by omega) (by omega)

/-- Wrapping keeps the order of two sums unless it changes the later one alone. -/
theorem toI64_le_toI64 (hle : u ≤ u') (hu : 0 < u) (hu' : u' < 2 ^ 64)
    (hwrap : u < 2 ^ 63 → u' < 2 ^ 63) : toI64 u ≤ toI64 u' := by
  by_cases h : u < 2 ^ 63
  · rw [toI64_eq (by omega) h, toI64_eq (by omega) (hwrap h)]
    exact hle
  · rw [toI64_of_wrap (by omega) (by omega), toI64_of_wrap (by omega) hu']
    exact Int.sub_le_sub_right hle _

theorem Cadence.index_of_none {c : Cadence} (h : c.due = none) (priced : List PricedWindow)
    (tz : Tz) : c.index priced tz = 0 := by
  have hl : c.lastFireSecs = none := Option.map_eq_none_iff.1 h
  rw [Cadence.index, hl, earliestEligibleIndex]

theorem Cadence.index_of_due {c : Cadence} (h : u ∈ c.due) (priced : List PricedWindow) (tz : Tz) :
    c.index priced tz = firstAtLeast (fun w => slotEpoch w tz) (toI64 u) priced := by
  obtain ⟨l, hl, rfl⟩ := Cadence.mem_due_iff.1 h
  rw [Cadence.index, Option.mem_def.1 hl, earliestEligibleIndex_some, fireFloor, toI64_add_toI64]

theorem Cadence.index_le_of_no_wrap {c c' : Cadence} (hle : c ≤ c')
    (hwrap : ∀ u ∈ c.due, ∀ u' ∈ c'.due, u < 2 ^ 63 → u' < 2 ^ 63)
    (priced : List PricedWindow) (tz : Tz) : c.index priced tz ≤ c'.index priced tz := by
  cases hu : c.due with
  | none =>
    rw [Cadence.index_of_none hu]
    exact Nat.zero_le _
  | some u =>
    obtain ⟨u', hu', huu'⟩ := Cadence.le_due hle hu
    rw [Cadence.index_of_due hu, Cadence.index_of_due hu']
    apply firstAtLeast_mono
    exact toI64_le_toI64 huu' (Cadence.due_mem hu).1 (Cadence.due_mem hu').2 (hwrap u hu u' hu')

/-- Where only the later sum wraps, a slot becomes eligible early unless all slots before the
sooner sum lie before the wrapped floor as well. -/
theorem Cadence.index_le_iff_of_wrap {c c' : Cadence} (hu : u ∈ c.due) (hu' : u' ∈ c'.due)
    (h : u < 2 ^ 63) (h' : 2 ^ 63 ≤ u') (priced : List PricedWindow) (tz : Tz) :
    c.index priced tz ≤ c'.index priced tz ↔
      ∀ k : Fin priced.length, (∀ i ≤ k, slotEpoch (priced.get i) tz < u) →
        slotEpoch (priced.get k) tz < u' - 2 ^ 64 := by
  have hfloor : toI64 u = u := toI64_eq (by have := Cadence.due_mem hu; omega) h
  have hfloor' : toI64 u' = u' - 2 ^ 64 := toI64_of_wrap h' (Cadence.due_mem hu').2
  rw [Cadence.index_of_due hu, Cadence.index_of_due hu', hfloor, hfloor']
  exact firstAtLeast_le_iff _ _ _ _

/-- The slot at the epoch is before every sum and after every floor that wraps. -/
theorem slotEpoch_epoch : slotEpoch ⟨0, 0, 0, 0⟩ (WallClock.Zone.fixed 0) = 0 := by
  decide

/-- A later last run or a longer interval makes an earlier slot eligible exactly when its sum
alone overflows and the pool has a slot, before the first one due by the other sum, at or after
the wrapped floor; there is such a pool for every such overflow. The cadences are those that
discovery emits. -/
theorem earliestEligibleIndex_mono_iff (Calendar : Type) (c c' : Cadence) (hle : c ≤ c') :
    (∀ priced tz, c.index priced tz ≤ c'.index priced tz ↔
      ∀ u ∈ c.due, ∀ u' ∈ c'.due, u < 2 ^ 63 → 2 ^ 63 ≤ u' →
        ∀ k : Fin priced.length, (∀ i ≤ k, slotEpoch (priced.get i) tz < u) →
          slotEpoch (priced.get k) tz < u' - 2 ^ 64) ∧
    ((∀ priced tz, c.index priced tz ≤ c'.index priced tz) ↔
      ∀ u ∈ c.due, ∀ u' ∈ c'.due, u < 2 ^ 63 → u' < 2 ^ 63) ∧
    ∀ nowSecs horizonSecs secs (lastFire : Option Int), secs < 2 ^ 63 →
      (∀ l ∈ lastFire, l < 2 ^ 63) →
      ((∃ desc : ScheduleDescription Calendar,
        probeSchedule nowSecs horizonSecs (.ok desc) = .ok (secs, lastFire)) ↔
      ∃ c : Cadence, c.intervalSecs = secs ∧ c.lastFireSecs = lastFire) := by
  have hpool (priced : List PricedWindow) (tz : Tz) :
      c.index priced tz ≤ c'.index priced tz ↔
        ∀ u ∈ c.due, ∀ u' ∈ c'.due, u < 2 ^ 63 → 2 ^ 63 ≤ u' →
          ∀ k : Fin priced.length, (∀ i ≤ k, slotEpoch (priced.get i) tz < u) →
            slotEpoch (priced.get k) tz < u' - 2 ^ 64 := by
    constructor
    · intro h u hu u' hu' hlt hge
      exact (Cadence.index_le_iff_of_wrap hu hu' hlt hge priced tz).1 h
    · intro h
      by_cases hwrap : ∀ u ∈ c.due, ∀ u' ∈ c'.due, u < 2 ^ 63 → u' < 2 ^ 63
      · exact Cadence.index_le_of_no_wrap hle hwrap priced tz
      · push Not at hwrap
        obtain ⟨u, hu, u', hu', hlt, hge⟩ := hwrap
        exact (Cadence.index_le_iff_of_wrap hu hu' hlt hge priced tz).2
          (h u hu u' hu' hlt hge)
  refine ⟨hpool, ?_, fun nowSecs horizonSecs secs lastFire hsecs hlast =>
    exists_probe_iff Calendar nowSecs horizonSecs hsecs hlast⟩
  · constructor
    · intro h u hu u' hu' hlt
      by_contra hge
      have hfirst := (hpool [⟨0, 0, 0, 0⟩] (WallClock.Zone.fixed 0)).1 (h _ _) u hu u' hu' hlt
        (not_lt.1 hge) ⟨0, Nat.one_pos⟩
      simp only [List.get_eq_getElem, List.getElem_singleton, slotEpoch_epoch] at hfirst
      have hbefore := hfirst fun _ _ => (Cadence.due_mem hu).1
      have hbound := (Cadence.due_mem hu').2
      omega
    · exact fun hwrap => Cadence.index_le_of_no_wrap hle hwrap

section Sample

/-- Midday of 1 January 2024, the only slot of a pool. -/
def middaySlot : List PricedWindow := [⟨19723, 12, 0, 5⟩]

/-- A job that ran at midnight that day, every so many seconds. -/
def midnightRun (intervalSecs : Nat) (h : 0 < intervalSecs ∧ intervalSecs < 2 ^ 63) : Cadence where
  lastFireSecs := some 1704067200
  intervalSecs := intervalSecs
  lastFire_mem l hl := by
    cases hl
    decide
  interval_mem := h

/-- At a daily interval the slot is too early; at the longest one it is eligible. -/
theorem longest_interval_fires_early :
    midnightRun 86400 (by decide) ≤ midnightRun (2 ^ 63 - 1) (by decide) ∧
    (midnightRun 86400 (by decide)).index middaySlot (WallClock.Zone.fixed 0) = 1 ∧
    (midnightRun (2 ^ 63 - 1) (by decide)).index middaySlot (WallClock.Zone.fixed 0) = 0 := by
  refine ⟨⟨?_, by decide⟩, by decide, by decide⟩
  intro l hl
  exact ⟨l, hl, le_rfl⟩

theorem earliestEligibleIndex_mono_week :
    (midnightRun 86400 (by decide)).index middaySlot (WallClock.Zone.fixed 0) ≤
      (midnightRun 604800 (by decide)).index middaySlot (WallClock.Zone.fixed 0) := by
  have hle : midnightRun 86400 (by decide) ≤ midnightRun 604800 (by decide) :=
    ⟨fun l hl => ⟨l, hl, le_rfl⟩, by decide⟩
  apply (earliestEligibleIndex_mono_iff String _ _ hle).2.1.2
  intro u hu u' hu' _
  cases hu'
  decide

end Sample

end Gridshift
