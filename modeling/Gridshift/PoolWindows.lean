import Gridshift.PricePool

namespace Gridshift
set_option autoImplicit true

def reading (w : PricedWindow) : Int := w.date * 86400 + w.hour * 3600 + w.minute * 60

/-- A provider's reply for a date: windows of that date, in chronological order. -/
structure DayReply (tz : Tz) (date : NaiveDate) (windows : List PricedWindow) : Prop where
  dated : ∀ w ∈ windows, w.date = date
  onClock : ∀ w ∈ windows, w.hour < 24 ∧ w.minute < 60
  chronological : Chronological windows tz

/-- No clock change touches today or tomorrow. -/
def SteadyDays (tz : Tz) (now : Int) (o : Int) : Prop :=
  tz.Steady (today tz now * 86400) ((today tz now + 2) * 86400) o

theorem andHmsOpt_reading (h : w.hour < 24 ∧ w.minute < 60) :
    andHmsOpt w.date w.hour w.minute = some (reading w) :=
  if_pos h

theorem slotEpoch_of_steady {tz : Tz} (h : tz.Steady lo hi o)
    (hclock : w.hour < 24 ∧ w.minute < 60) (hlo : lo ≤ reading w) (hhi : reading w < hi) :
    slotEpoch w tz = reading w - o := by
  rw [slotEpoch, andHmsOpt_reading hclock]
  simp only [h.earliest hlo hhi, Option.getD_some]

theorem SteadyDays.offset_now (h : SteadyDays tz now o) : tz.offset (now / 10 ^ 9) = o := by
  apply h
  right
  simp only [today, dateOf, nowLocal]
  omega

theorem SteadyDays.nowLocal_eq (h : SteadyDays tz now o) : nowLocal tz now = now / 10 ^ 9 + o := by
  rw [nowLocal, WallClock.Zone.toLocal, h.offset_now]

/-- The windows of a pool start after now, today or tomorrow, and lie in its two days. -/
theorem mem_pricePool (htoday : DayReply tz (today tz now) todayWindows)
    (htomorrow : ∀ ws ∈ tomorrowWindows, DayReply tz (today tz now + 1) ws)
    (hw : w ∈ pricePool tz now todayWindows tomorrowWindows) :
    (w.hour < 24 ∧ w.minute < 60) ∧ (w.date = today tz now ∨ w.date = today tz now + 1) ∧
      today tz now * 86400 ≤ reading w ∧ reading w < (today tz now + 2) * 86400 ∧
      nowLocal tz now < reading w := by
  rw [pricePool, List.mem_append, List.mem_filter] at hw
  rcases hw with ⟨hw, hahead⟩ | hw
  · have hd := htoday.dated w hw
    have hc := htoday.onClock w hw
    rw [stillAhead, hd, decide_eq_false (lt_irrefl _), Bool.false_or, decide_eq_true_eq,
      nowMins, scheduleLeadMins] at hahead
    have hm := minuteOfDay_eq (nowLocal tz now)
    refine ⟨hc, .inl hd, ?_⟩
    simp only [reading, hd, today, dateOf] at hm ⊢
    omega
  · cases tomorrowWindows with
    | none => cases hw
    | some ws =>
      have hd := (htomorrow ws rfl).dated w hw
      have hc := (htomorrow ws rfl).onClock w hw
      refine ⟨hc, .inr hd, ?_⟩
      simp only [reading, hd, today, dateOf]
      omega

theorem slotEpoch_mem_pricePool (hsteady : SteadyDays tz now o)
    (htoday : DayReply tz (today tz now) todayWindows)
    (htomorrow : ∀ ws ∈ tomorrowWindows, DayReply tz (today tz now + 1) ws)
    (hw : w ∈ pricePool tz now todayWindows tomorrowWindows) :
    slotEpoch w tz = reading w - o ∧ now / 10 ^ 9 < slotEpoch w tz ∧
      slotEpoch w tz < now / 10 ^ 9 + 172800 := by
  obtain ⟨hclock, -, hlo, hhi, hlt⟩ := mem_pricePool htoday htomorrow hw
  have he := slotEpoch_of_steady hsteady hclock hlo hhi
  have hn := hsteady.nowLocal_eq
  rw [he]
  refine ⟨rfl, ?_⟩
  simp only [today, dateOf, hn] at hhi hlt
  omega

theorem chronological_pricePool (hsteady : SteadyDays tz now o)
    (htoday : DayReply tz (today tz now) todayWindows)
    (htomorrow : ∀ ws ∈ tomorrowWindows, DayReply tz (today tz now + 1) ws) :
    Chronological (pricePool tz now todayWindows tomorrowWindows) tz := by
  have hepoch (w : PricedWindow) (hw : w ∈ pricePool tz now todayWindows tomorrowWindows) :=
    (slotEpoch_mem_pricePool hsteady htoday htomorrow hw).1
  simp only [pricePool, Chronological, List.pairwise_append] at hepoch ⊢
  refine ⟨htoday.chronological.sublist List.filter_sublist, ?_, ?_⟩
  · cases tomorrowWindows with
    | none => exact .nil
    | some ws => exact (htomorrow ws rfl).chronological
  · intro w hw w' hw'
    rw [hepoch w (List.mem_append_left _ hw), hepoch w' (List.mem_append_right _ hw')]
    have hd := htoday.dated w (List.mem_of_mem_filter hw)
    have hc := htoday.onClock w (List.mem_of_mem_filter hw)
    cases tomorrowWindows with
    | none => cases hw'
    | some ws =>
      have hd' := (htomorrow ws rfl).dated w' hw'
      simp only [reading, hd, hd']
      omega

end Gridshift
