import Gridshift.Firing

namespace Gridshift
open IntervalGrid
set_option autoImplicit true

/-- With a pool of less than two intervals, the grid of a slot fires next at the slot itself or
one interval before it. -/
theorem nextAfter_of_pool {every u now : Int} (hlt : now < u) (hle : u ≤ now + 2 * every) :
    nextAfter every u now = if u ≤ now + every then u else u - every := by
  split
  · rename_i h
    exact (OnGrid.self every u).eq_nextAfter hlt h
  · rename_i h
    have hprev : OnGrid every u (u - every) := ⟨-1, by ring⟩
    exact hprev.eq_nextAfter (by omega) (by omega)

theorem eligible_le_slotEpoch {priced : List PricedWindow} (hinc : Chronological priced tz)
    {t : Fin priced.length} (ht : earliestEligibleIndex priced (some lastFire) everySecs tz ≤ t)
    (h0 : 0 ≤ lastFire) (hfit : lastFire + (everySecs : Int) < 2 ^ 63) :
    lastFire + everySecs ≤ slotEpoch (priced.get t) tz := by
  have hfloor := (hinc.eligible_iff t.isLt).1 ht
  rwa [fireFloor_eq (by omega) hfit] at hfloor

/-- The schedule that a run rewrites to an eligible slot next fires an interval after its last
firing exactly when the floor does not overflow and no earlier member of the slot's grid comes
first: the slot is within one interval of now, or two intervals after the last firing. -/
theorem rephase_guard_iff (sdk : Sdk Calendar) (tz : Tz) (o : Int) (now : Int)
    (todayWindows : List PricedWindow) (tomorrowWindows : Option (List PricedWindow))
    (priced : List PricedWindow) (lastFire : Int) (everySecs : Nat)
    (spec spec' : ScheduleSpec Calendar) (t : Fin priced.length)
    (hpool : priced = pricePool tz now todayWindows tomorrowWindows)
    (hsteady : SteadyDays tz now o) (htoday : DayReply tz (today tz now) todayWindows)
    (htomorrow : ∀ ws ∈ tomorrowWindows, DayReply tz (today tz now + 1) ws)
    (hepoch : slotEpoch (priced.get t) tz < 2 ^ 63)
    (hevery : 86400 ≤ everySecs) (h0 : 0 ≤ lastFire) (hnow : lastFire ≤ now / 10 ^ 9)
    (ht : earliestEligibleIndex priced (some lastFire) everySecs tz ≤ t)
    (hspec : spec.SingleInterval everySecs)
    (hwrite : rephase sdk (windowTs tz (priced.get t).toChosen) (some spec) = .ok spec') :
    ∃ first, IsLeast {u | now / 10 ^ 9 < u ∧ spec'.FiresAt u} first ∧
      (lastFire + everySecs ≤ first ↔ lastFire + (everySecs : Int) < 2 ^ 63 ∧
        (slotEpoch (priced.get t) tz ≤ now / 10 ^ 9 + everySecs ∨
          lastFire + 2 * everySecs ≤ slotEpoch (priced.get t) tz)) := by
  have hmem : (priced.get t) ∈ pricePool tz now todayWindows tomorrowWindows :=
    hpool ▸ List.getElem_mem t.isLt
  obtain ⟨-, hlt, hspan⟩ := slotEpoch_mem_pricePool hsteady htoday htomorrow hmem
  have hts : (windowTs tz (priced.get t).toChosen : Int) = slotEpoch (priced.get t) tz :=
    windowTs_eq_slotEpoch (by omega)
  have hinc : Chronological priced tz := hpool ▸ chronological_pricePool hsteady htoday htomorrow
  refine ⟨_, isLeast_firesAt_rephase hspec (by omega) hwrite _, ?_⟩
  rw [hts, nextAfter_of_pool hlt (by omega)]
  by_cases hfit : lastFire + (everySecs : Int) < 2 ^ 63
  · have hslot := eligible_le_slotEpoch hinc ht h0 hfit
    split <;> omega
  · split <;> omega

section Sample

def lateSlots : List PricedWindow := [⟨19724, 23, 0, 9⟩, ⟨19724, 23, 30, 4⟩]

theorem lateSlots_reply :
    DayReply (WallClock.Zone.fixed 0) (today (WallClock.Zone.fixed 0) 1704139200000000000 + 1)
      lateSlots :=
  ⟨by decide, by decide, by decide⟩

def dailySpec : ScheduleSpec String :=
  ⟨[⟨some ⟨86400, 0⟩, some ⟨7200, 0⟩⟩], [], [], none, none, none, ""⟩

theorem dailySpec_single : dailySpec.SingleInterval 86400 := ⟨_, rfl⟩

/-- A daily job that ran at 02:00 and is planned at 20:00 for 23:30 of the next day fires at
23:30 the same day. -/
theorem rephase_fires_early :
    DayReply (WallClock.Zone.fixed 0) (today (WallClock.Zone.fixed 0) 1704139200000000000 + 1)
        lateSlots ∧
      earliestEligibleIndex (pricePool (WallClock.Zone.fixed 0) 1704139200000000000 [] lateSlots)
        (some 1704074400) 86400 (WallClock.Zone.fixed 0) ≤ 1 ∧
      ∃ spec', rephase (.plain String) (windowTs (WallClock.Zone.fixed 0) ⟨19724, 23, 30⟩)
          (some dailySpec) = .ok spec' ∧
        IsLeast {u | 1704139200 < u ∧ spec'.FiresAt u} 1704151800 ∧
        ¬ (1704074400 + 86400 : Int) ≤ 1704151800 := by
  refine ⟨lateSlots_reply, by decide, _, rfl, ?_, by decide⟩
  have hwrite : rephase (.plain String) (windowTs (WallClock.Zone.fixed 0) ⟨19724, 23, 30⟩)
    (some dailySpec) = .ok _ := rfl
  have hnext : nextAfter (86400 : Nat)
      (windowTs (WallClock.Zone.fixed 0) ⟨19724, 23, 30⟩) 1704139200 = 1704151800 := by decide
  rw [← hnext]
  exact isLeast_firesAt_rephase dailySpec_single (by decide) hwrite 1704139200

/-- A job that ran at 22:00 the evening before may fire at 23:00 of either day. -/
theorem rephase_guard_iff_sample :
    ∃ spec' first, rephase (.plain String) (windowTs (WallClock.Zone.fixed 0) ⟨19724, 23, 0⟩)
        (some dailySpec) = .ok spec' ∧
      IsLeast {u | 1704139200000000000 / 10 ^ 9 < u ∧ spec'.FiresAt u} first ∧
      (1704060000 + 86400 : Int) ≤ first := by
  have hwrite : rephase (.plain String) (windowTs (WallClock.Zone.fixed 0) ⟨19724, 23, 0⟩)
    (some dailySpec) = .ok _ := rfl
  obtain ⟨first, hfirst, h⟩ := rephase_guard_iff (.plain String) (WallClock.Zone.fixed 0) 0
    1704139200000000000 [] lateSlots lateSlots 1704060000 86400 dailySpec _ ⟨0, by decide⟩ rfl
    (WallClock.Zone.fixed_steady _ _ _) ⟨by decide, by decide, by decide⟩
    (by rintro ws ⟨⟩; exact lateSlots_reply) (by decide) (by decide) (by decide) (by decide)
    (by decide) dailySpec_single hwrite
  exact ⟨_, first, hwrite, hfirst, h.2 ⟨by decide, .inr (by decide)⟩⟩

end Sample

end Gridshift
