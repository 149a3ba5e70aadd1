import Gridshift.Provider
import Gridshift.Tiling

namespace Gridshift
open Tiling
set_option autoImplicit true

/-- The boundary that is queried for a date: its first local midnight, or else UTC midnight. -/
def midnight (tz : Tz) (d : Int) : Int := (tz.earliest (d * 86400)).getD (d * 86400)

def InPeriod (tz : Tz) (date : Int) (v : Int) : Prop :=
  midnight tz date ≤ v ∧ v < midnight tz (date + 1)

instance : Decidable (InPeriod tz date v) := inferInstanceAs (Decidable (_ ∧ _))

/-- The rates of a period, as the API is asked for them. -/
structure RatesApi where
  rates : Int → Int → List OctopusRate
  inPeriod : ∀ {periodFrom periodTo r}, r ∈ rates periodFrom periodTo →
    periodFrom ≤ r.validFrom ∧ r.validFrom < periodTo

def fetchPricedWindows (formatRat : Rat → String) (formatTime : Int → String) (api : RatesApi)
    (date : NaiveDate) (tz : Tz) : Except ProviderError (List PricedWindow) :=
  pricedWindowsOf formatRat formatTime date tz
    (api.rates (midnight tz date) (midnight tz (date + 1)))

def localDate (tz : Tz) (v : Int) : Int := dateOf (tz.toLocal v)

/-- A date begins once and for all, at a midnight on the clock or, where the clock shows none, at
midnight UTC. -/
def CleanMidnight (tz : Tz) (d : Int) : Prop :=
  ∃ u, (∀ v, u ≤ v ↔ d * 86400 ≤ tz.toLocal v) ∧
    (tz.toLocal u = d * 86400 ∨ u = d * 86400 ∧ ∀ v, tz.toLocal v ≠ d * 86400)

/-- A date begins at its first local midnight or, where the clock shows none, at midnight UTC. -/
def BeginsAt (tz : Tz) (d u : Int) : Prop :=
  (tz.toLocal u = d * 86400 ∧ ∀ v < u, tz.toLocal v ≠ d * 86400) ∨
    u = d * 86400 ∧ ∀ v, tz.toLocal v ≠ d * 86400

/-- The instants of a date are one stretch of time, from its beginning to that of the next. -/
def UnbrokenDay (tz : Tz) (d : Int) : Prop :=
  ∃ u u', BeginsAt tz d u ∧ BeginsAt tz (d + 1) u' ∧
    ∀ v, localDate tz v = d ↔ u ≤ v ∧ v < u'

theorem beginsAt_iff (tz : Tz) (d u : Int) : BeginsAt tz d u ↔ midnight tz d = u := by
  constructor
  · rintro (⟨hshown, hfirst⟩ | ⟨rfl, hnone⟩)
    · have hu : tz.earliest (d * 86400) = some u :=
        tz.earliest_eq_some_iff.2 ⟨hshown, fun v hv => not_lt.1 fun hlt => hfirst v hlt hv⟩
      rw [midnight, hu, Option.getD_some]
    · rw [midnight, tz.earliest_eq_none_iff.2 hnone, Option.getD_none]
  · rintro rfl
    cases hm : tz.earliest (d * 86400) with
    | none =>
      right
      exact ⟨by rw [midnight, hm, Option.getD_none], tz.earliest_eq_none_iff.1 hm⟩
    | some u =>
      left
      obtain ⟨hshown, hfirst⟩ := tz.earliest_eq_some_iff.1 hm
      rw [midnight, hm, Option.getD_some]
      exact ⟨hshown, fun v hlt hv => not_lt.2 (hfirst v hv) hlt⟩

theorem unbrokenDay_iff (tz : Tz) (d : Int) :
    UnbrokenDay tz d ↔ ∀ v, InPeriod tz d v ↔ localDate tz v = d := by
  simp only [UnbrokenDay, beginsAt_iff, exists_and_left, exists_eq_left', InPeriod]
  exact forall_congr' fun v => iff_comm

theorem le_localDate_iff (tz : Tz) (d v : Int) : d ≤ localDate tz v ↔ d * 86400 ≤ tz.toLocal v := by
  change d ≤ tz.toLocal v / 86400 ↔ _
  omega

theorem CleanMidnight.midnight_eq (h : ∀ v, u ≤ v ↔ d * 86400 ≤ tz.toLocal v)
    (hu : tz.toLocal u = d * 86400 ∨ u = d * 86400 ∧ ∀ v, tz.toLocal v ≠ d * 86400) :
    midnight tz d = u := by
  apply (beginsAt_iff tz d u).1
  rcases hu with hshown | hnone
  · exact .inl ⟨hshown, fun v hlt hv => not_le.2 hlt ((h v).2 hv.ge)⟩
  · exact .inr hnone

theorem CleanMidnight.le_iff (h : CleanMidnight tz d) (v : Int) :
    midnight tz d ≤ v ↔ d ≤ localDate tz v := by
  obtain ⟨u, hu, hstart⟩ := h
  rw [midnight_eq hu hstart, le_localDate_iff, hu v]

theorem cleanMidnight_iff (tz : Tz) (d : Int) :
    CleanMidnight tz d ↔ ∀ v, midnight tz d ≤ v ↔ d ≤ localDate tz v := by
  constructor
  · exact CleanMidnight.le_iff
  · intro h
    refine ⟨midnight tz d, fun v => (h v).trans (le_localDate_iff tz d v), ?_⟩
    exact ((beginsAt_iff tz d _).2 rfl).imp_left And.left

/-- Boundaries stay within a day of UTC midnight, as offsets do. -/
theorem midnight_lt_midnight (hoffset : ∀ u, |tz.offset u| < 86400) (d : Int) :
    midnight tz d < midnight tz (d + 2) := by
  have hnear (d : Int) : |midnight tz d - d * 86400| < 86400 := by
    cases hm : tz.earliest (d * 86400) with
    | none =>
      rw [midnight, hm, Option.getD_none, sub_self, abs_zero]
      norm_num
    | some u =>
      have hlocal := (tz.earliest_eq_some_iff.1 hm).1
      have ho := hoffset u
      rw [midnight, hm, Option.getD_some]
      rw [WallClock.Zone.toLocal] at hlocal
      rw [abs_lt] at ho ⊢
      omega
  have hlo := abs_lt.1 (hnear d)
  have hhi := abs_lt.1 (hnear (d + 2))
  omega

theorem date_of_fetched (hexact : ∀ v, InPeriod tz d v ↔ localDate tz v = d)
    (h : fetchPricedWindows formatRat formatTime api d tz = .ok windows) (hw : w ∈ windows) :
    w.date = d := by
  rw [fetchPricedWindows, pricedWindowsOf] at h
  split at h
  · cases h
  · split at h
    · cases h
    · cases h
      obtain ⟨r, hr, rfl⟩ := List.mem_map.1 hw
      exact (hexact r.validFrom).1 (api.inPeriod ((sortRates_perm _).mem_iff.1 hr))

theorem cuts_midnight_iff (hoffset : ∀ u, |tz.offset u| < 86400) :
    Cuts (midnight tz) (localDate tz) ↔ ∀ d, CleanMidnight tz d :=
  (cuts_iff (midnight_lt_midnight hoffset)).trans
    (forall_congr' fun d => (cleanMidnight_iff tz d).symm)

/-- The fetched periods are the local days, and so tile the time line and date their windows
right, exactly in the zones where every date begins at a clean midnight. Of a single date that is
so exactly when the clock shows it unbroken from its midnight to the next. -/
theorem fetch_period_iff (tz : Tz) (hoffset : ∀ u, |tz.offset u| < 86400) :
    ((∀ d v, InPeriod tz d v ↔ localDate tz v = d) ∧ (∀ v, ∃! d, InPeriod tz d v) ∧
        (∀ formatRat formatTime api d windows,
          fetchPricedWindows formatRat formatTime api d tz = .ok windows →
            ∀ w ∈ windows, w.date = d) ↔
      ∀ d, CleanMidnight tz d) ∧
    (∀ d, (∀ v, InPeriod tz d v ↔ localDate tz v = d) ↔ UnbrokenDay tz d) ∧
    ∀ d, CleanMidnight tz d → CleanMidnight tz (d + 1) →
      ∀ v, InPeriod tz d v ↔ localDate tz v = d := by
  refine ⟨⟨?_, ?_⟩, fun d => (unbrokenDay_iff tz d).symm, ?_⟩
  · intro h
    exact (cuts_midnight_iff hoffset).1 h.1
  · intro h
    have hcuts := (cuts_midnight_iff hoffset).2 h
    exact ⟨hcuts, hcuts.existsUnique, fun _ _ _ d _ hok w hw => date_of_fetched (hcuts d) hok hw⟩
  · intro d h h' v
    rw [InPeriod, h.le_iff, ← not_le, h'.le_iff]
    omega

section Sample

def RatesApi.publishing (rates : List OctopusRate) : RatesApi where
  rates periodFrom periodTo :=
    rates.filter fun r => periodFrom ≤ r.validFrom ∧ r.validFrom < periodTo
  inPeriod h := of_decide_eq_true (List.mem_filter.1 h).2

/-- Clocks that go forward at midnight, from 3 to 2 hours behind UTC. -/
def saoPaulo : Tz := WallClock.Zone.summer (-10800) 1541300400 1550368800

/-- 4 November 2018 has no midnight there: what is fetched for it begins three hours early. -/
theorem fetch_period_skipped_midnight :
    saoPaulo.earliest (17839 * 86400) = none ∧
    InPeriod saoPaulo 17839 1541289600 ∧ localDate saoPaulo 1541289600 = 17838 ∧
    fetchPricedWindows (fun _ => "") (fun _ => "") (.publishing [⟨.finite 5, 1541289600⟩]) 17839
      saoPaulo = .ok [⟨17838, 21, 0, 5⟩] := by
  decide

theorem london_offset (u : Int) :
    london.offset u = if 1711846800 ≤ u ∧ u < 1729990800 then 3600 else 0 := rfl

/-- London's clocks change at one in the morning, so every midnight there is clean. -/
theorem cleanMidnight_london (d : Int) : CleanMidnight london d := by
  simp only [CleanMidnight, WallClock.Zone.toLocal, london_offset]
  by_cases hsummer : 19814 ≤ d ∧ d ≤ 20023
  · exact ⟨d * 86400 - 3600, fun v => by split <;> omega, .inl (by split <;> omega)⟩
  · exact ⟨d * 86400, fun v => by split <;> omega, .inl (by split <;> omega)⟩

/-- The second showing of 01:00, on the day when the clocks go back, is in that day's period. -/
theorem fetch_period_iff_london :
    (∃! d, InPeriod london d 1729990800) ∧ InPeriod london 20023 1729990800 ∧
      UnbrokenDay london 20023 := by
  have hoffset (u : Int) : |london.offset u| < 86400 := by
    rw [london_offset]
    split <;> decide
  obtain ⟨⟨-, hclean⟩, hday, -⟩ := fetch_period_iff london hoffset
  obtain ⟨hexact, htiles, -⟩ := hclean cleanMidnight_london
  exact ⟨htiles _, (hexact _ _).2 (by decide), (hday _).1 (hexact _)⟩

end Sample

end Gridshift
