import Gridshift.PlanExtraction

namespace Gridshift
set_option autoImplicit true

structure OctopusRate where
  valueIncVat : F64
  validFrom : Int
deriving DecidableEq, Repr

def F64.toRat : F64 → Rat
  | .finite q => q
  | _ => 0

def F64.display (formatRat : Rat → String) : F64 → String
  | .finite q => formatRat q
  | .infinity negative => if negative then "-inf" else "inf"
  | .nan => "NaN"

def sortRates (rates : List OctopusRate) : List OctopusRate :=
  rates.insertionSort fun r r' => r.validFrom ≤ r'.validFrom

def rateWindow (tz : Tz) (r : OctopusRate) : PricedWindow where
  date := dateOf (tz.toLocal r.validFrom)
  hour := hourOf (tz.toLocal r.validFrom)
  minute := minuteOf (tz.toLocal r.validFrom)
  pricePPerKwh := r.valueIncVat.toRat

/-- What `fetch_priced_windows` makes of the rates in the provider's answer. -/
def pricedWindowsOf (formatRat : Rat → String) (formatTime : Int → String) (date : NaiveDate)
    (tz : Tz) (results : List OctopusRate) : Except ProviderError (List PricedWindow) :=
  if results.isEmpty then .error (.notYetPublished date)
  else match results.find? fun r => !r.valueIncVat.isFinite with
    | some r =>
      let price := r.valueIncVat.display formatRat
      let start := formatTime r.validFrom
      .error (.other
        s!"Octopus API returned non-finite price ({price}) for slot starting {start}")
    | none => .ok ((sortRates results).map (rateWindow tz))

/-- The instant that the updater takes a reading for; zero stands for none. -/
def utcTs (tz : Tz) (ndt : Int) : Nat :=
  ((tz.earliest ndt).bind fun ts => if 0 ≤ ts then some ts.toNat else none).getD 0

def windowTs (tz : Tz) (w : ChosenWindow) : Nat :=
  ((andHmsOpt w.date w.hour w.minute).map (utcTs tz)).getD 0

/-- A slot start that its wall-clock reading determines: a whole minute of local time, shown
there for the first time, and not before the epoch. -/
def RoundTrips (tz : Tz) (v : Int) : Prop :=
  0 ≤ v ∧ tz.offset v % 60 = 0 ∧ ∀ u < v, tz.toLocal u ≠ tz.toLocal v

theorem slotEpoch_rateWindow (tz : Tz) (r : OctopusRate) :
    slotEpoch (rateWindow tz r) tz =
      (tz.earliest (tz.toLocal r.validFrom - tz.toLocal r.validFrom % 60)).getD i64Min := by
  simp only [slotEpoch, rateWindow, andHmsOpt_parts]

theorem windowTs_rateWindow (tz : Tz) (r : OctopusRate) :
    windowTs tz (rateWindow tz r).toChosen =
      utcTs tz (tz.toLocal r.validFrom - tz.toLocal r.validFrom % 60) := by
  simp only [windowTs, rateWindow, PricedWindow.toChosen, andHmsOpt_parts, Option.map_some,
    Option.getD_some]

theorem utcTs_of_earliest {tz : Tz} (h : tz.earliest l = some u) (hu : 0 ≤ u) :
    (utcTs tz l : Int) = u := by
  rw [utcTs, h, Option.bind_some, if_pos hu, Option.getD_some, Int.toNat_of_nonneg hu]

/-- The planner's and the updater's readings of a window agree from the epoch on. -/
theorem windowTs_eq_slotEpoch {tz : Tz} (h0 : 0 ≤ slotEpoch w tz) :
    (windowTs tz w.toChosen : Int) = slotEpoch w tz := by
  cases hndt : andHmsOpt w.date w.hour w.minute with
  | none =>
    simp only [slotEpoch, hndt, i64Min] at h0
    omega
  | some ndt =>
    cases hts : tz.earliest ndt with
    | none =>
      simp only [slotEpoch, hndt, hts, Option.getD_none, i64Min] at h0
      omega
    | some ts =>
      simp only [slotEpoch, windowTs, PricedWindow.toChosen, hndt, hts, Option.getD_some,
        Option.map_some] at h0 ⊢
      exact utcTs_of_earliest hts h0

/-- Both readings of a window give the rate's own start exactly when the start round-trips. -/
theorem roundTrips_iff (tz : Tz) (hmin : r.validFrom % 60 = 0) :
    (slotEpoch (rateWindow tz r) tz = r.validFrom ∧
      (windowTs tz (rateWindow tz r).toChosen : Int) = r.validFrom) ↔
    RoundTrips tz r.validFrom := by
  rw [slotEpoch_rateWindow, windowTs_rateWindow]
  constructor
  · rintro ⟨he, hu⟩
    have hv : 0 ≤ r.validFrom := hu ▸ Int.natCast_nonneg _
    cases h : tz.earliest (tz.toLocal r.validFrom - tz.toLocal r.validFrom % 60) with
    | none =>
      rw [h, Option.getD_none, i64Min] at he
      omega
    | some u =>
      rw [h, Option.getD_some] at he
      subst he
      have hl := (tz.earliest_eq_some_iff.1 h).1
      have hs : tz.toLocal r.validFrom % 60 = 0 := by omega
      rw [hs, Int.sub_zero] at h
      refine ⟨hv, ?_, (tz.earliest_toLocal_iff _).1 h⟩
      simp only [WallClock.Zone.toLocal] at hs
      omega
  · rintro ⟨hv, ho, hfirst⟩
    have hs : tz.toLocal r.validFrom % 60 = 0 := by
      simp only [WallClock.Zone.toLocal]
      omega
    have he := (tz.earliest_toLocal_iff r.validFrom).2 hfirst
    rw [hs, Int.sub_zero, he, Option.getD_some]
    exact ⟨rfl, utcTs_of_earliest he hv⟩

theorem sortRates_perm (rates : List OctopusRate) : (sortRates rates).Perm rates :=
  List.perm_insertionSort _ _

theorem sortRates_validFrom (rates : List OctopusRate) :
    (sortRates rates).map OctopusRate.validFrom =
      (rates.map OctopusRate.validFrom).insertionSort (· ≤ ·) :=
  List.map_insertionSort _ _ _ _ fun _ _ _ _ => Iff.rfl

theorem pricedWindowsOf_ok (hne : rates ≠ []) (hfin : ∀ r ∈ rates, r.valueIncVat.isFinite = true) :
    pricedWindowsOf formatRat formatTime date tz rates =
      .ok ((sortRates rates).map (rateWindow tz)) := by
  have hnone : (rates.find? fun r => !r.valueIncVat.isFinite) = none :=
    List.find?_eq_none.2 fun r hr => by simp only [hfin r hr, Bool.not_true, Bool.false_eq_true,
      not_false_eq_true]
  rw [pricedWindowsOf, if_neg (by simpa using hne), hnone]

/-- Planner and updater read each window of a returned day as the start of its own rate. -/
structure KeepsInstants (tz : Tz) (rates : List OctopusRate) (windows : List PricedWindow) :
    Prop where
  slotEpochs : windows.map (fun w => slotEpoch w tz) =
    (rates.map OctopusRate.validFrom).insertionSort (· ≤ ·)
  windowTss : windows.map (fun w => (windowTs tz w.toChosen : Int)) =
    (rates.map OctopusRate.validFrom).insertionSort (· ≤ ·)
  increasing : Chronological windows tz

theorem sortRates_increasing {rates : List OctopusRate}
    (hdistinct : (rates.map OctopusRate.validFrom).Nodup) :
    (sortRates rates).Pairwise fun r r' => r.validFrom < r'.validFrom := by
  have hle := List.pairwise_insertionSort (· ≤ ·) (rates.map OctopusRate.validFrom)
  rw [← sortRates_validFrom] at hle
  have hnd := ((sortRates_perm rates).map OctopusRate.validFrom).nodup_iff.2 hdistinct
  exact List.pairwise_map.1 ((hle.and hnd).imp fun hh => lt_of_le_of_ne hh.1 hh.2)

theorem keepsInstants_iff {rates : List OctopusRate} (hmin : ∀ r ∈ rates, r.validFrom % 60 = 0)
    (hdistinct : (rates.map OctopusRate.validFrom).Nodup) :
    KeepsInstants tz rates ((sortRates rates).map (rateWindow tz)) ↔
      ∀ r ∈ rates, RoundTrips tz r.validFrom := by
  have hmem (r : OctopusRate) : r ∈ sortRates rates ↔ r ∈ rates := (sortRates_perm rates).mem_iff
  constructor
  · intro h r hr
    have he := h.slotEpochs
    have hu := h.windowTss
    rw [← sortRates_validFrom, List.map_map, List.map_inj_left] at he hu
    exact (roundTrips_iff tz (hmin r hr)).1 ⟨he r ((hmem r).2 hr), hu r ((hmem r).2 hr)⟩
  · intro h
    have hboth (r : OctopusRate) (hr : r ∈ sortRates rates) :=
      (roundTrips_iff tz (hmin r ((hmem r).1 hr))).2 (h r ((hmem r).1 hr))
    refine ⟨?_, ?_, ?_⟩
    · rw [← sortRates_validFrom, List.map_map, List.map_inj_left]
      exact fun r hr => (hboth r hr).1
    · rw [← sortRates_validFrom, List.map_map, List.map_inj_left]
      exact fun r hr => (hboth r hr).2
    · rw [Chronological, List.pairwise_map]
      apply (sortRates_increasing hdistinct).imp_of_mem
      intro r r' hr hr' hlt
      rwa [(hboth r hr).1, (hboth r' hr').1]

/-- The provider returns one window a rate, in the order of their starts; together they keep
their instants exactly when every start round-trips. -/
theorem pricedWindowsOf_instants_iff (formatRat : Rat → String) (formatTime : Int → String)
    (date : NaiveDate) (tz : Tz) (rates : List OctopusRate) (hne : rates ≠ [])
    (hfin : ∀ r ∈ rates, r.valueIncVat.isFinite = true)
    (hmin : ∀ r ∈ rates, r.validFrom % 60 = 0)
    (hdistinct : (rates.map OctopusRate.validFrom).Nodup) :
    ∃ windows, pricedWindowsOf formatRat formatTime date tz rates = .ok windows ∧
      windows = (sortRates rates).map (rateWindow tz) ∧
      (KeepsInstants tz rates windows ↔ ∀ r ∈ rates, RoundTrips tz r.validFrom) :=
  ⟨_, pricedWindowsOf_ok hne hfin, rfl, keepsInstants_iff hmin hdistinct⟩

def london : Tz := WallClock.Zone.summer 0 1711846800 1729990800

def repeatedHour : List OctopusRate :=
  [⟨.finite 10, 1729987200⟩, ⟨.finite 12, 1729990800⟩]

theorem pricedWindowsOf_repeated_hour :
    repeatedHour.all (fun r => r.valueIncVat.isFinite) = true ∧
      (∀ r ∈ repeatedHour, r.validFrom % 60 = 0) ∧
      (repeatedHour.map OctopusRate.validFrom).Nodup ∧
      ∃ windows, pricedWindowsOf (fun _ => "") (fun _ => "") 20023 london repeatedHour =
          .ok windows ∧
        windows.map (fun w => slotEpoch w london) = [1729987200, 1729987200] ∧
        ¬ KeepsInstants london repeatedHour windows := by
  refine ⟨by decide, by decide, by decide, _, rfl, by decide, ?_⟩
  intro h
  exact absurd h.increasing (by decide)

theorem roundTrips_london (h0 : 1711846800 ≤ v) (h : v < 1729990800) : RoundTrips london v := by
  have hv : london.offset v = 0 + 3600 := if_pos ⟨h0, h⟩
  refine ⟨by omega, by rw [hv]; rfl, ?_⟩
  intro u hu
  simp only [WallClock.Zone.toLocal, hv]
  by_cases hsummer : 1711846800 ≤ u ∧ u < 1729990800
  · rw [show london.offset u = 0 + 3600 from if_pos hsummer]
    omega
  · rw [show london.offset u = 0 from if_neg hsummer]
    omega

theorem pricedWindowsOf_instants_iff_evening :
    ∃ windows, pricedWindowsOf (fun _ => "") (fun _ => "") 20022 london
        [⟨.finite 15, 1729972800⟩, ⟨.finite (-2), 1729971000⟩] = .ok windows ∧
      windows.map PricedWindow.toChosen = [⟨20022, 20, 30⟩, ⟨20022, 21, 0⟩] ∧
      KeepsInstants london [⟨.finite 15, 1729972800⟩, ⟨.finite (-2), 1729971000⟩] windows := by
  obtain ⟨windows, hok, hw, hkeeps⟩ := pricedWindowsOf_instants_iff (fun _ => "") (fun _ => "")
    20022 london [⟨.finite 15, 1729972800⟩, ⟨.finite (-2), 1729971000⟩] (by decide) (by decide)
    (by decide) (by decide)
  refine ⟨windows, hok, by rw [hw]; decide, hkeeps.2 ?_⟩
  intro r hr
  rcases List.mem_pair.1 hr with rfl | rfl
  · exact roundTrips_london (by decide) (by decide)
  · exact roundTrips_london (by decide) (by decide)

end Gridshift
