import Gridshift.ManagedSchedule
import Gridshift.IntervalGuard
import Gridshift.DayProfile

namespace Gridshift
open IntervalGrid PeriodicTimer
set_option autoImplicit true

/-- A daily schedule of one slot, an exact solver, a zone without clock changes, and prices that
repeat every day with `c` the only cheapest slot. -/
structure SteadyPrices (env : Managed) (o : Int) (price : Nat → Rat) (c : Nat) : Prop where
  exact : env.lib.Exact
  slot_pos : 0 < env.slotDurationMins
  interval : env.everySecs = 86400
  oneSlot : ∀ lastFire,
    reservedSlots env.scheduleDurations env.slotDurationMins (env.info lastFire) = 1
  offset : ∀ u, env.tz.offset u = o
  slot_lt : c < 1440 / env.slotDurationMins
  cheapest : ∀ k < 1440 / env.slotDurationMins, k ≠ c → price c < price k

def slotStart (env : Managed) (o : Int) (c : Nat) (date : Int) : Int :=
  date * 86400 + (c * env.slotDurationMins : Nat) * 60 - o

/-- What the run at `now` chooses when today's and tomorrow's prices are the same. -/
def nightChoice (env : Managed) (price : Nat → Rat) (now delay : Int) (firings : List Int) :
    Option ChosenWindow :=
  env.choose now (daySlots env.slotDurationMins price (today env.tz now))
    (some (daySlots env.slotDurationMins price (today env.tz now + 1))) (recorded delay firings)

def nights (env : Managed) (price : Nat → Rat) (nows delays : Nat → Int) (m : Timer) :
    Nat → Timer
  | 0 => m
  | i + 1 =>
    (env.update (nightChoice env price (nows i) (delays i)
      (nights env price nows delays m i).firings) (nights env price nows delays m i)).wait
        env.everySecs (nows (i + 1) / 10 ^ 9 - nows i / 10 ^ 9).toNat

/-- The schedule at a run after it has fired for slot `c` of that day. -/
structure FiredToday (env : Managed) (o : Int) (c : Nat) (now : Int) (m : Timer) : Prop where
  clock : m.clock = now / 10 ^ 9
  fired : slotStart env o c (today env.tz now) ≤ m.clock
  firings : ∃ fs, m.firings = slotStart env o c (today env.tz now) :: fs ∧
    ∀ f ∈ fs, f ≤ slotStart env o c (today env.tz now)

section Steady
variable {env : Managed} {price : Nat → Rat} {now delay : Int}

theorem SteadyPrices.steady (h : SteadyPrices env o price c) (lo hi : Int) :
    env.tz.Steady lo hi o :=
  fun u _ => h.offset u

theorem SteadyPrices.reply (h : SteadyPrices env o price c) (date : Int) :
    DayReply env.tz date (daySlots env.slotDurationMins price date) :=
  dayReply_daySlots h.slot_pos (h.steady (date * 86400) ((date + 1) * 86400)) le_rfl le_rfl

theorem SteadyPrices.chronological (h : SteadyPrices env o price c) (now : Int) :
    Chronological (pricePool env.tz now
      (daySlots env.slotDurationMins price (today env.tz now))
      (some (daySlots env.slotDurationMins price (today env.tz now + 1)))) env.tz := by
  refine chronological_pricePool (h.steady _ _) (h.reply _) ?_
  rintro ws ⟨⟩
  exact h.reply _

theorem SteadyPrices.slotEpoch (h : SteadyPrices env o price c)
    (hk : k < 1440 / env.slotDurationMins) (date : Int) :
    slotEpoch (profileSlot env.slotDurationMins price date k) env.tz = slotStart env o k date :=
  slotEpoch_profileSlot h.slot_pos (h.steady (date * 86400) ((date + 1) * 86400)) hk le_rfl le_rfl

theorem SteadyPrices.now_span (h : SteadyPrices env o price c) (now : Int) :
    today env.tz now * 86400 - o ≤ now / 10 ^ 9 ∧
      now / 10 ^ 9 < (today env.tz now + 1) * 86400 - o := by
  simp only [today, dateOf, nowLocal, WallClock.Zone.toLocal, h.offset]
  omega

theorem slotStart_span (o : Int) (hk : k < 1440 / env.slotDurationMins) (date : Int) :
    date * 86400 - o ≤ slotStart env o k date ∧
      slotStart env o k date + env.slotDurationMins * 60 ≤ (date + 1) * 86400 - o := by
  have := slot_lt_day hk
  simp only [slotStart]
  omega

/-- After the day's firing, the pool holds today's slots after `c` and all of tomorrow's. -/
theorem SteadyPrices.mem_pool (h : SteadyPrices env o price c)
    (hfired : slotStart env o c (today env.tz now) ≤ now / 10 ^ 9)
    (hw : w ∈ pricePool env.tz now (daySlots env.slotDurationMins price (today env.tz now))
      (some (daySlots env.slotDurationMins price (today env.tz now + 1)))) :
    ∃ k < 1440 / env.slotDurationMins,
      (k ≠ c ∧ w = profileSlot env.slotDurationMins price (today env.tz now) k) ∨
        w = profileSlot env.slotDurationMins price (today env.tz now + 1) k := by
  have hmem := hw
  rw [pricePool, List.mem_append] at hw
  rcases hw with hw | hw
  · obtain ⟨k, hk, rfl⟩ := mem_daySlots.1 (List.mem_of_mem_filter hw)
    refine ⟨k, hk, .inl ⟨?_, rfl⟩⟩
    rintro rfl
    have hlt := slotEpoch_mem_pricePool (h.steady _ _) (h.reply _)
      (by rintro ws ⟨⟩; exact h.reply _) hmem
    rw [h.slotEpoch hk] at hlt
    omega
  · obtain ⟨k, hk, rfl⟩ := mem_daySlots.1 hw
    exact ⟨k, hk, .inr rfl⟩

theorem FiredToday.recorded_eq (hm : FiredToday env o c now m)
    (h0 : 0 ≤ slotStart env o c (today env.tz now))
    (hdelay : 0 ≤ delay) :
    recorded delay m.firings = some (slotStart env o c (today env.tz now) + delay / 10 ^ 9) := by
  obtain ⟨fs, hfirings, hlatest⟩ := hm.firings
  rw [hfirings]
  exact recorded_cons hdelay h0 hlatest

/-- A firing recorded within its own second leaves the slot of the next day eligible. -/
theorem SteadyPrices.nightChoice_eq (h : SteadyPrices env o price c)
    (hm : FiredToday env o c now m) (h0 : 0 ≤ slotStart env o c (today env.tz now))
    (hrange : (today env.tz now + 2) * 86400 - o < 2 ^ 63)
    (hdelay : 0 ≤ delay) (hprompt : delay < 10 ^ 9) :
    nightChoice env price now delay m.firings =
      some (profileSlot env.slotDurationMins price (today env.tz now + 1) c).toChosen := by
  have hspan := slotStart_span o h.slot_lt (today env.tz now)
  rw [nightChoice, hm.recorded_eq h0 hdelay]
  refine chooseWindow_of_mem h.exact h.slot_pos.ne' _ (h.oneSlot _) (h.chronological now)
    (List.mem_append_right _ (mem_daySlots.2 ⟨c, h.slot_lt, rfl⟩)) ?_ ?_
  · rintro f ⟨⟩
    simp only [Managed.info, h.interval]
    rw [fireFloor_eq (by omega) (by omega), h.slotEpoch h.slot_lt]
    simp only [slotStart]
    omega
  · intro w hw hne
    obtain ⟨k, hk, ⟨hkc, rfl⟩ | rfl⟩ := h.mem_pool (hm.clock ▸ hm.fired) hw
    · exact h.cheapest k hk hkc
    · refine h.cheapest k hk fun hkc => hne ?_
      rw [hkc]

/-- A firing recorded a second late or more excludes the slot of the next day. -/
theorem SteadyPrices.nightChoice_later (h : SteadyPrices env o price c)
    (hm : FiredToday env o c now m) (h0 : 0 ≤ slotStart env o c (today env.tz now))
    (hrange : (today env.tz now + 2) * 86400 - o < 2 ^ 63) (hlate : 10 ^ 9 ≤ delay)
    (hslot : delay < env.slotDurationMins * 60 * 10 ^ 9)
    (hchoice : nightChoice env price now delay m.firings = some w) :
    ∃ k, c < k ∧ k < 1440 / env.slotDurationMins ∧
      w = (profileSlot env.slotDurationMins price (today env.tz now + 1) k).toChosen := by
  have hspan := slotStart_span o h.slot_lt (today env.tz now)
  rw [nightChoice, hm.recorded_eq h0 (by omega)] at hchoice
  obtain ⟨t, ht, rfl⟩ := chooseWindow_eligible hchoice
  have hfloor := eligible_le_slotEpoch (h.chronological now) ht (by omega)
    (by simp only [Managed.info, h.interval]; omega)
  simp only [Managed.info, h.interval] at hfloor
  obtain ⟨k, hk, hw⟩ := h.mem_pool (hm.clock ▸ hm.fired) (List.getElem_mem t.isLt)
  rw [List.get_eq_getElem] at hfloor ⊢
  rcases hw with ⟨-, hw⟩ | hw
  · rw [hw, h.slotEpoch hk] at hfloor
    have := slotStart_span o hk (today env.tz now)
    omega
  · refine ⟨k, ?_, hk, congrArg PricedWindow.toChosen hw⟩
    rw [hw, h.slotEpoch hk] at hfloor
    by_contra hle
    have := Nat.mul_le_mul_right env.slotDurationMins (Nat.not_lt.1 hle)
    simp only [slotStart] at hfloor
    omega

theorem SteadyPrices.fired_next (h : SteadyPrices env o price c)
    (hm : FiredToday env o c now m) (h0 : 0 ≤ slotStart env o c (today env.tz now))
    (hday : today env.tz now' = today env.tz now + 1)
    (hafter : slotStart env o c (today env.tz now') ≤ now' / 10 ^ 9) :
    FiredToday env o c now' ((env.update (some (profileSlot env.slotDurationMins price
      (today env.tz now + 1) c).toChosen) m).wait env.everySecs
        (now' / 10 ^ 9 - now / 10 ^ 9).toNat) := by
  obtain ⟨hclock, hfired, fs, hfirings, hlatest⟩ := hm
  have hspan := h.now_span now
  have hspan' := h.now_span now'
  have hstart := slotStart_span o h.slot_lt (today env.tz now')
  have hnextday : slotStart env o c (today env.tz now') =
      slotStart env o c (today env.tz now) + 86400 := by
    rw [hday]
    simp only [slotStart]
    omega
  have hts : (windowTs env.tz (profileSlot env.slotDurationMins price (today env.tz now + 1)
      c).toChosen : Int) = slotStart env o c (today env.tz now') := by
    rw [hday]
    refine windowTs_profileSlot h.slot_pos (h.steady ((today env.tz now + 1) * 86400) _)
      h.slot_lt le_rfl le_rfl ?_
    change 0 ≤ slotStart env o c (today env.tz now + 1)
    rw [← hday]
    omega
  have hevery : (env.everySecs : Int) = 86400 := by rw [h.interval]; rfl
  generalize hm₁ : env.update (some (profileSlot env.slotDurationMins price
    (today env.tz now + 1) c).toChosen) m = m₁
  have hclock₁ : m₁.clock = now / 10 ^ 9 := by rw [← hm₁, Managed.clock_update, hclock]
  have hnext : m₁.next env.everySecs = slotStart env o c (today env.tz now') := by
    rw [← hm₁, env.next_update (by omega), hts]
    exact (OnGrid.self _ _).eq_nextAfter (by omega) (by omega)
  have hfirings₁ : m₁.firings = slotStart env o c (today env.tz now) :: fs := by
    rw [← hm₁, Managed.firings_update, hfirings]
  have hwait : now / 10 ^ 9 + ((now' / 10 ^ 9 - now / 10 ^ 9).toNat : Int) = now' / 10 ^ 9 := by
    omega
  rw [m₁.wait_of_ge (by omega) (by rw [hnext, hclock₁]; omega) (by rw [hnext, hclock₁]; omega),
    hnext, hclock₁, hwait]
  refine ⟨rfl, hafter, m₁.firings, rfl, ?_⟩
  rw [hfirings₁]
  intro f hf
  rcases List.mem_cons.1 hf with rfl | hf
  · omega
  · have hle := hlatest f hf
    omega

theorem SteadyPrices.fired_nights (h : SteadyPrices env o price c) {nows delays : Nat → Int}
    (hm : FiredToday env o c (nows 0) m) (n : Nat)
    (hdays : ∀ i ≤ n, today env.tz (nows i) = today env.tz (nows 0) + i)
    (hprompt : ∀ i ≤ n, 0 ≤ delays i ∧ delays i < 10 ^ 9)
    (hafter : ∀ i ≤ n, slotStart env o c (today env.tz (nows i)) * 10 ^ 9 + delays i ≤ nows i)
    (h0 : 0 ≤ slotStart env o c (today env.tz (nows 0)))
    (hrange : (today env.tz (nows n) + 2) * 86400 - o < 2 ^ 63) :
    FiredToday env o c (nows n) (nights env price nows delays m n) := by
  induction n with
  | zero => exact hm
  | succ n ih =>
    have hday := hdays n (by omega)
    have hday' := hdays (n + 1) le_rfl
    push_cast at hday'
    have hfired := ih (fun i hi => hdays i (by omega)) (fun i hi => hprompt i (by omega))
      (fun i hi => hafter i (by omega)) (by omega)
    obtain ⟨hdelay, hlt⟩ := hprompt n (by omega)
    have hstart : 0 ≤ slotStart env o c (today env.tz (nows n)) := by
      rw [hday]
      simp only [slotStart] at h0 ⊢
      omega
    rw [nights, h.nightChoice_eq hfired hstart (by omega) hdelay hlt]
    refine h.fired_next hfired hstart (by omega) ?_
    have hlast := hafter (n + 1) le_rfl
    have := (hprompt (n + 1) le_rfl).1
    omega

end Steady

/-- Under prices that repeat every day, a schedule whose firings are recorded within their second
is assigned to the cheapest slot of the next day night after night; one recorded a second late or
more is assigned at once to a later slot of the next day, or to none. -/
theorem steady_slot (env : Managed) (o : Int) (price : Nat → Rat) (c : Nat)
    (h : SteadyPrices env o price c) (nows delays : Nat → Int) (m : Timer) (n : Nat)
    (hm : FiredToday env o c (nows 0) m)
    (hdays : ∀ i ≤ n, today env.tz (nows i) = today env.tz (nows 0) + i)
    (hafter : ∀ i ≤ n, slotStart env o c (today env.tz (nows i)) * 10 ^ 9 + delays i ≤ nows i)
    (h0 : 0 ≤ slotStart env o c (today env.tz (nows 0)))
    (hrange : (today env.tz (nows n) + 2) * 86400 - o < 2 ^ 63) :
    ((∀ i ≤ n, 0 ≤ delays i ∧ delays i < 10 ^ 9) →
      nightChoice env price (nows n) (delays n) (nights env price nows delays m n).firings =
        some (profileSlot env.slotDurationMins price (today env.tz (nows n) + 1) c).toChosen) ∧
    (10 ^ 9 ≤ delays 0 → delays 0 < env.slotDurationMins * 60 * 10 ^ 9 →
      ∀ w, nightChoice env price (nows 0) (delays 0) m.firings = some w →
        ∃ k, c < k ∧ k < 1440 / env.slotDurationMins ∧
          w = (profileSlot env.slotDurationMins price (today env.tz (nows 0) + 1) k).toChosen) := by
  have hday := hdays n le_rfl
  constructor
  · intro hprompt
    have hfired := h.fired_nights hm n hdays hprompt hafter h0 hrange
    obtain ⟨hdelay, hlt⟩ := hprompt n le_rfl
    refine h.nightChoice_eq hfired ?_ hrange hdelay hlt
    rw [hday]
    simp only [slotStart] at h0 ⊢
    omega
  · intro hlate hslot w hchoice
    have hrange0 : (today env.tz (nows 0) + 2) * 86400 - o < 2 ^ 63 := by omega
    exact h.nightChoice_later hm h0 hrange0 hlate hslot hchoice

section Sample

noncomputable def daily : Managed :=
  ⟨⟨exactSolve, fun _ => ""⟩, fun _ => none, .fixed 0, 30, ⟨"default", "backup"⟩, 86400⟩

def dawnPrice (k : Nat) : Rat := if k = 10 then 0 else 1

theorem daily_steady : SteadyPrices daily 0 dawnPrice 10 where
  exact := exactSolve_exact _
  slot_pos := by decide
  interval := rfl
  oneSlot _ := by simp [reservedSlots, durationSlots, daily]
  offset _ := rfl
  slot_lt := by decide
  cheapest k _ hne := by simp [dawnPrice, hne]

def evenings (i : Nat) : Int := ((i + 1) * 86400 + 72000) * 10 ^ 9

def firedAtDawn : Timer := ⟨158400, 18000, [104400]⟩

theorem today_evenings (i : Nat) : today daily.tz (evenings i) = i + 1 := by
  simp only [today, dateOf, nowLocal, evenings, WallClock.Zone.toLocal, daily,
    WallClock.Zone.fixed]
  omega

theorem firedAtDawn_fired : FiredToday daily 0 10 (evenings 0) firedAtDawn :=
  ⟨by decide, by decide, [], by decide, by simp⟩

/-- A firing recorded five seconds late is not assigned to 05:00 of the next day. -/
theorem steady_slot_drifts :
    FiredToday daily 0 10 (evenings 0) firedAtDawn ∧
      nightChoice daily dawnPrice (evenings 0) 5000000000 firedAtDawn.firings ≠
        some ⟨2, 5, 0⟩ := by
  refine ⟨firedAtDawn_fired, fun hchoice => ?_⟩
  obtain ⟨k, hk, -, hw⟩ := daily_steady.nightChoice_later firedAtDawn_fired (by decide) (by decide)
    (by decide) (by decide) hchoice
  simp only [profileSlot, PricedWindow.toChosen, ChosenWindow.mk.injEq, daily] at hw
  omega

/-- A tenth of a second later every night. -/
def laggingDelays (i : Nat) : Int := (i + 1) * 10 ^ 8

theorem steady_slot_week :
    nightChoice daily dawnPrice (evenings 7) (laggingDelays 7)
      (nights daily dawnPrice evenings laggingDelays firedAtDawn 7).firings = some ⟨9, 5, 0⟩ := by
  obtain ⟨h, -⟩ := steady_slot daily 0 dawnPrice 10 daily_steady evenings laggingDelays
    firedAtDawn 7 firedAtDawn_fired
    (fun i _ => by rw [today_evenings, today_evenings]; omega)
    (fun i _ => by
      rw [today_evenings]
      simp only [slotStart, evenings, laggingDelays, daily]
      omega)
    (by decide) (by decide)
  refine h fun i hi => ?_
  simp only [laggingDelays]
  omega

end Sample

end Gridshift
