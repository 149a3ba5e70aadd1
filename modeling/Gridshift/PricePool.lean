import Gridshift.Provider
import Gridshift.Workflow

namespace Gridshift
set_option autoImplicit true

def HasLead (now : Int) (v : Int) : Prop :=
  scheduleLeadMins * 60 * 10 ^ 9 ≤ v * 10 ^ 9 - now

instance : Decidable (HasLead now v) := inferInstanceAs (Decidable (_ ≤ _))

def keeps (tz : Tz) (now : Int) (r : OctopusRate) : Bool :=
  stillAhead tz now (rateWindow tz r)

def nextSec (now : Int) : Int := (now + 999999999) / 10 ^ 9

def leadSecs (now : Int) (v : Int) : Int := v - nextSec now

/-- How far the wall-clock filter misjudges a slot's lead: by the clock change between now and
the slot, the seconds it drops from either, and the days the slot is dated before today. -/
def slipSecs (tz : Tz) (now : Int) (v : Int) : Int :=
  tz.offset v - tz.offset (now / 10 ^ 9) + (nextSec now - now / 10 ^ 9 + nowLocal tz now % 60) -
    tz.toLocal v % 60 + 86400 * (today tz now - dateOf (tz.toLocal v))

/-- The lead is not between the lead time and what the misjudgement leaves of it. -/
def LeadAgrees (tz : Tz) (now : Int) (v : Int) : Prop :=
  if today tz now < dateOf (tz.toLocal v) then 120 ≤ leadSecs now v
  else leadSecs now v < min 120 (120 - slipSecs tz now v) ∨
    max 120 (120 - slipSecs tz now v) ≤ leadSecs now v

instance : Decidable (LeadAgrees tz now v) := inferInstanceAs (Decidable (ite _ _ _))

theorem hasLead_iff : HasLead now v ↔ 120 ≤ leadSecs now v := by
  simp only [HasLead, scheduleLeadMins, leadSecs, nextSec]
  omega

theorem minuteOfDay_eq (l : Int) :
    ((hourOf l * 60 + minuteOf l : Nat) : Int) = l % 86400 / 60 := by
  simp only [hourOf, minuteOf]
  omega

theorem keeps_iff (tz : Tz) (now : Int) (r : OctopusRate) :
    keeps tz now r = true ↔ today tz now < dateOf (tz.toLocal r.validFrom) ∨
      nowLocal tz now % 86400 / 60 + 2 ≤ tz.toLocal r.validFrom % 86400 / 60 := by
  rw [keeps, stillAhead, Bool.or_eq_true, decide_eq_true_eq, decide_eq_true_eq,
    ← minuteOfDay_eq, ← minuteOfDay_eq]
  simp only [rateWindow, nowMins, scheduleLeadMins]
  norm_cast

theorem keeps_of_not_later (h : ¬ today tz now < dateOf (tz.toLocal r.validFrom)) :
    keeps tz now r = true ↔ 120 ≤ leadSecs now r.validFrom + slipSecs tz now r.validFrom := by
  rw [keeps_iff, or_iff_right h]
  simp only [today, dateOf, leadSecs, slipSecs, nowLocal, WallClock.Zone.toLocal]
  omega

theorem keeps_iff_hasLead :
    (keeps tz now r = true ↔ HasLead now r.validFrom) ↔ LeadAgrees tz now r.validFrom := by
  rw [hasLead_iff, LeadAgrees]
  split
  · rename_i h
    rw [iff_true_left ((keeps_iff tz now r).2 (.inl h))]
  · rename_i h
    rw [keeps_of_not_later h]
    omega

/-- Where the clock does not change, the filter's error for a slot of today on a whole minute is
the seconds that have passed since now's own minute began. -/
theorem slipSecs_eq (ho : tz.offset v = tz.offset (now / 10 ^ 9)) (hv : tz.toLocal v % 60 = 0)
    (hd : dateOf (tz.toLocal v) = today tz now) :
    slipSecs tz now v = nextSec now - now / 10 ^ 9 + nowLocal tz now % 60 := by
  rw [slipSecs, ho, hv, hd]
  omega

theorem leadAgrees_today (ho : tz.offset v = tz.offset (now / 10 ^ 9))
    (hv : tz.toLocal v % 60 = 0) (hd : dateOf (tz.toLocal v) = today tz now) :
    LeadAgrees tz now v ↔
      leadSecs now v < 120 - (nextSec now - now / 10 ^ 9 + nowLocal tz now % 60) ∨
        120 ≤ leadSecs now v := by
  rw [LeadAgrees, if_neg (by rw [hd]; exact lt_irrefl _), slipSecs_eq ho hv hd]
  simp only [nextSec]
  omega

/-- The pool is made of the slots with enough lead exactly when no slot's lead is misjudged and
none of tomorrow's, which the workflow does not filter, is too early. Without a clock change, the
lead misjudged is one within the seconds of now before the lead time. -/
theorem pricePool_exact_iff (tz : Tz) (now : Int) (todays : List OctopusRate)
    (tomorrows : Option (List OctopusRate)) :
    pricePool tz now (todays.map (rateWindow tz)) (tomorrows.map (List.map (rateWindow tz))) =
        (todays.filter (keeps tz now) ++ tomorrows.getD []).map (rateWindow tz) ∧
      ((∀ r ∈ todays, keeps tz now r = true ↔ HasLead now r.validFrom) ∧
          (∀ r ∈ tomorrows.getD [], HasLead now r.validFrom) ↔
        (∀ r ∈ todays, LeadAgrees tz now r.validFrom) ∧
          ∀ r ∈ tomorrows.getD [], nextSec now + 120 ≤ r.validFrom) ∧
      ∀ v, tz.offset v = tz.offset (now / 10 ^ 9) → tz.toLocal v % 60 = 0 →
        dateOf (tz.toLocal v) = today tz now →
        (LeadAgrees tz now v ↔
          leadSecs now v < 120 - (nextSec now - now / 10 ^ 9 + nowLocal tz now % 60) ∨
            120 ≤ leadSecs now v) := by
  refine ⟨?_, ?_, fun v => leadAgrees_today⟩
  · rw [pricePool, List.filter_map, List.map_append]
    cases tomorrows <;> rfl
  · apply and_congr
    · exact forall₂_congr fun r _ => keeps_iff_hasLead
    · apply forall₂_congr
      intro r _
      rw [hasLead_iff, leadSecs]
      omega

def eveningRates : List OctopusRate :=
  [⟨.finite 7, 1704139200⟩, ⟨.finite 5, 1704141000⟩, ⟨.finite 6, 1704142800⟩]

/-- At 20:28:30 the slot of 20:30 is kept, a minute and a half before it starts. -/
theorem pricePool_keeps_short_lead :
    pricePool (WallClock.Zone.fixed 0) 1704140910000000000
        ([⟨.finite 5, 1704141000⟩].map (rateWindow (WallClock.Zone.fixed 0))) none =
      [⟨19723, 20, 30, 5⟩] ∧
    slotEpoch ⟨19723, 20, 30, 5⟩ (WallClock.Zone.fixed 0) = 1704141000 ∧
    ¬ HasLead 1704140910000000000 1704141000 := by
  decide

/-- At 20:27:30 the slot of 20:00 is dropped, and those of 20:30 and later are kept with reason. -/
theorem pricePool_exact_iff_evening :
    pricePool (WallClock.Zone.fixed 0) 1704140850000000000
        (eveningRates.map (rateWindow (WallClock.Zone.fixed 0)))
        (some ([⟨.finite 4, 1704153600⟩].map (rateWindow (WallClock.Zone.fixed 0)))) =
      [⟨19723, 20, 30, 5⟩, ⟨19723, 21, 0, 6⟩, ⟨19724, 0, 0, 4⟩] ∧
    ∀ r ∈ eveningRates,
      keeps (WallClock.Zone.fixed 0) 1704140850000000000 r = true ↔
        HasLead 1704140850000000000 r.validFrom := by
  obtain ⟨hpool, hexact, -⟩ := pricePool_exact_iff (WallClock.Zone.fixed 0) 1704140850000000000
    eveningRates (some [⟨.finite 4, 1704153600⟩])
  exact ⟨hpool.trans (by decide), (hexact.2 ⟨by decide, by decide⟩).1⟩

end Gridshift
