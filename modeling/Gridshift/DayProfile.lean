import Gridshift.PoolWindows

namespace Gridshift
set_option autoImplicit true

def profileSlot (slotMins : Nat) (price : Nat → Rat) (date : Int) (k : Nat) : PricedWindow :=
  ⟨date, k * slotMins / 60, k * slotMins % 60, price k⟩

def daySlots (slotMins : Nat) (price : Nat → Rat) (date : Int) : List PricedWindow :=
  (List.range (1440 / slotMins)).map (profileSlot slotMins price date)

theorem mem_daySlots :
    w ∈ daySlots slotMins price date ↔
      ∃ k < 1440 / slotMins, profileSlot slotMins price date k = w := by
  simp only [daySlots, List.mem_map, List.mem_range]

theorem reading_profileSlot (slotMins : Nat) (price : Nat → Rat) (date : Int) (k : Nat) :
    reading (profileSlot slotMins price date k) = date * 86400 + (k * slotMins : Nat) * 60 := by
  have := Nat.div_add_mod (k * slotMins) 60
  simp only [reading, profileSlot]
  omega

theorem slot_lt_day (hk : k < 1440 / slotMins) : k * slotMins + slotMins ≤ 1440 := by
  have h := Nat.mul_le_mul_right slotMins hk
  have h' := Nat.div_mul_le_self 1440 slotMins
  rw [Nat.succ_mul] at h
  omega

theorem profileSlot_onClock (hpos : 0 < slotMins) (hk : k < 1440 / slotMins) :
    (profileSlot slotMins price date k).hour < 24 ∧
      (profileSlot slotMins price date k).minute < 60 := by
  have h := slot_lt_day hk
  simp only [profileSlot]
  omega

theorem slotEpoch_profileSlot {tz : Tz} (hpos : 0 < slotMins) (hsteady : tz.Steady lo hi o)
    (hk : k < 1440 / slotMins) (hlo : lo ≤ date * 86400) (hhi : (date + 1) * 86400 ≤ hi) :
    slotEpoch (profileSlot slotMins price date k) tz =
      date * 86400 + (k * slotMins : Nat) * 60 - o := by
  have h := slot_lt_day hk
  have hr := reading_profileSlot slotMins price date k
  rw [slotEpoch_of_steady hsteady (profileSlot_onClock hpos hk) (by omega) (by omega), hr]

theorem windowTs_profileSlot {tz : Tz} (hpos : 0 < slotMins) (hsteady : tz.Steady lo hi o)
    (hk : k < 1440 / slotMins) (hlo : lo ≤ date * 86400) (hhi : (date + 1) * 86400 ≤ hi)
    (h0 : 0 ≤ date * 86400 + (k * slotMins : Nat) * 60 - o) :
    (windowTs tz (profileSlot slotMins price date k).toChosen : Int) =
      date * 86400 + (k * slotMins : Nat) * 60 - o := by
  have he : slotEpoch (profileSlot slotMins price date k) tz = _ :=
    slotEpoch_profileSlot hpos hsteady hk hlo hhi
  rw [← he] at h0 ⊢
  exact windowTs_eq_slotEpoch h0

/-- A whole day's slots are a provider's reply for that day, where no clock change touches it. -/
theorem dayReply_daySlots {tz : Tz} (hpos : 0 < slotMins) (hsteady : tz.Steady lo hi o)
    (hlo : lo ≤ date * 86400) (hhi : (date + 1) * 86400 ≤ hi) :
    DayReply tz date (daySlots slotMins price date) := by
  refine ⟨?_, ?_, ?_⟩
  · intro w hw
    obtain ⟨k, -, rfl⟩ := mem_daySlots.1 hw
    rfl
  · intro w hw
    obtain ⟨k, hk, rfl⟩ := mem_daySlots.1 hw
    exact profileSlot_onClock hpos hk
  · rw [Chronological, daySlots, List.pairwise_map]
    apply List.pairwise_lt_range.imp_of_mem
    intro k k' hk hk' hlt
    rw [slotEpoch_profileSlot hpos hsteady (List.mem_range.1 hk) hlo hhi,
      slotEpoch_profileSlot hpos hsteady (List.mem_range.1 hk') hlo hhi]
    have := Nat.mul_lt_mul_of_pos_right hlt hpos
    omega

end Gridshift
