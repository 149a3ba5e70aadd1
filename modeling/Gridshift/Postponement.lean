import Gridshift.ManagedSchedule
import Gridshift.DayProfile

namespace Gridshift
open IntervalGrid PeriodicTimer
set_option autoImplicit true

/-- A managed schedule between runs: its timer, the last run, and when the last run that moved it
was made, in nanoseconds. -/
structure Nights where
  timer : Timer
  lastRun : Int
  lastRephase : Option Int

/-- A whole run at one instant: it discovers the schedule, plans it and rewrites its phase. -/
def Managed.runAt (env : Managed) (now : Int) (todayWindows : List PricedWindow)
    (tomorrowWindows : Option (List PricedWindow)) (s : Nights) : Nights :=
  let choice := env.choose now todayWindows tomorrowWindows (recorded 0 s.timer.firings)
  { timer := env.update choice s.timer
    lastRun := s.timer.clock
    lastRephase := if choice.isSome then some now else s.lastRephase }

/-- Time passes a second at a time, with a run at least once in 24 hours. What the provider
promises of its replies is asked on days without a clock change only. -/
inductive NightStep (env : Managed) : Nights → Nights → Prop where
  | tick (h : s.timer.clock < s.lastRun + 86400) :
    NightStep env s { s with timer := s.timer.tick env.everySecs }
  | run (now : Int) (todayWindows : List PricedWindow)
    (tomorrowWindows : Option (List PricedWindow)) (hnow : now / 10 ^ 9 = s.timer.clock)
    (hreply : ∀ o, SteadyDays env.tz now o →
      DayReply env.tz (today env.tz now) todayWindows ∧
        ∀ ws ∈ tomorrowWindows, DayReply env.tz (today env.tz now + 1) ws) :
    NightStep env s (env.runAt now todayWindows tomorrowWindows s)

/-- The schedule last fired at `lastFire` and is due an interval later. -/
structure Nights.Initial (env : Managed) (lastFire : Int) (s : Nights) : Prop where
  firings : s.timer.firings = [lastFire]
  clock_nonneg : 0 ≤ s.timer.clock
  next : s.timer.next env.everySecs = lastFire + env.everySecs
  lastRun : s.lastRun = s.timer.clock
  lastRephase : s.lastRephase = none

/-- The next firing comes within an interval of a run, and within two days of it where no clock
change touches the run's days. -/
structure Managed.DueSince (env : Managed) (now : Int) (m : Timer) : Prop where
  past : now / 10 ^ 9 ≤ m.clock
  interval : m.next env.everySecs ≤ now / 10 ^ 9 + env.everySecs
  days : ∀ o, SteadyDays env.tz now o → m.next env.everySecs < now / 10 ^ 9 + 172800

/-- The next firing is due an interval after the latest one, or since the last run that moved
it. -/
structure Nights.Pending (env : Managed) (s : Nights) : Prop where
  clock_nonneg : 0 ≤ s.timer.clock
  due : ∃ lastFire ∈ s.timer.firings.head?,
    s.timer.next env.everySecs ≤ lastFire + env.everySecs ∨
      ∃ now ∈ s.lastRephase, env.DueSince now s.timer

theorem Nights.Pending.tick (hpos : 0 < env.everySecs) (h : Nights.Pending env s) :
    Nights.Pending env { s with timer := s.timer.tick env.everySecs } := by
  obtain ⟨h0, lastFire, hlast, hdue⟩ := h
  have he : (0 : Int) < env.everySecs := by omega
  refine ⟨by simp only [Timer.clock_tick]; omega, ?_⟩
  rcases s.timer.tick_cases he with ⟨-, hfirings, hnext⟩ | ⟨-, hfirings, hnext⟩
  · exact ⟨s.timer.next env.everySecs, by rw [hfirings]; rfl, .inl hnext.le⟩
  · refine ⟨lastFire, by rw [hfirings]; exact hlast, ?_⟩
    rw [hnext]
    rcases hdue with hdue | ⟨now, hnow, hpast, hinterval, hdays⟩
    · exact .inl hdue
    · exact .inr ⟨now, hnow, by simp only [Timer.clock_tick]; omega, hnext ▸ hinterval,
        hnext ▸ hdays⟩

theorem Nights.Pending.run (hpos : 0 < env.everySecs) (h : Nights.Pending env s)
    (hnow : now / 10 ^ 9 = s.timer.clock)
    (hreply : ∀ o, SteadyDays env.tz now o →
      DayReply env.tz (today env.tz now) todayWindows ∧
        ∀ ws ∈ tomorrowWindows, DayReply env.tz (today env.tz now + 1) ws) :
    Nights.Pending env (env.runAt now todayWindows tomorrowWindows s) := by
  obtain ⟨h0, lastFire, hlast, hdue⟩ := h
  rw [Managed.runAt]
  cases hc : env.choose now todayWindows tomorrowWindows (recorded 0 s.timer.firings) with
  | none => exact ⟨h0, lastFire, hlast, hdue⟩
  | some w =>
    have hnext := env.next_update hpos w s.timer
    refine ⟨h0, lastFire, hlast, .inr ⟨now, rfl, hnow.le, ?_, ?_⟩⟩
    · rw [hnext, hnow]
      exact nextAfter_le (by omega) _ _
    · intro o hsteady
      obtain ⟨htoday, htomorrow⟩ := hreply o hsteady
      obtain ⟨hlt, hspan⟩ := env.choose_span hsteady htoday htomorrow (by omega) hc
      have hself := OnGrid.self env.everySecs (windowTs env.tz w)
      have hfirst := nextAfter_le_of_onGrid (by omega) hself (hnow ▸ hlt)
      rw [hnext]
      omega

theorem Nights.Pending.of_reach (hpos : 0 < env.everySecs) (h : Nights.Pending env s)
    (hreach : Relation.ReflTransGen (NightStep env) s s') : Nights.Pending env s' := by
  induction hreach with
  | refl => exact h
  | tail _ hstep ih =>
    cases hstep with
    | tick => exact ih.tick hpos
    | run now todayWindows tomorrowWindows hnow hreply => exact ih.run hpos hnow hreply

theorem reach_wait (env : Managed) (s : Nights)
    (h : s.timer.clock + (n : Nat) ≤ s.lastRun + 86400) :
    Relation.ReflTransGen (NightStep env) s
      { s with timer := s.timer.wait env.everySecs n } := by
  induction n with
  | zero => exact .refl
  | succ n ih =>
    push_cast at h
    rw [Timer.wait_succ]
    refine .tail (ih (by omega)) (.tick ?_)
    simp only [Timer.clock_wait]
    omega

/-- The clock stays before the next firing, which is due an interval after the latest one or
since the last run that moved it; so a schedule that no run moves once it is due, and that was
last moved on days without a clock change, fires within two days of being due. -/
theorem nights_bound (env : Managed) (initial s : Nights) (lastFire : Int)
    (hpos : 0 < env.everySecs) (hinitial : initial.Initial env lastFire)
    (hreach : Relation.ReflTransGen (NightStep env) initial s) :
    ∃ latest ∈ s.timer.firings.head?, s.timer.clock < s.timer.next env.everySecs ∧
      (s.timer.next env.everySecs ≤ latest + env.everySecs ∨
        ∃ now ∈ s.lastRephase, env.DueSince now s.timer) ∧
      ((∀ now ∈ s.lastRephase, latest < now / 10 ^ 9 →
          now / 10 ^ 9 ≤ latest + env.everySecs ∧ ∃ o, SteadyDays env.tz now o) →
        s.timer.clock ≤ latest + env.everySecs + 172800) := by
  have hpending : initial.Pending env :=
    ⟨hinitial.clock_nonneg, lastFire, by rw [hinitial.firings]; rfl, .inl hinitial.next.le⟩
  obtain ⟨-, latest, hlatest, hdue⟩ := hpending.of_reach hpos hreach
  have he : (0 : Int) < env.everySecs := by omega
  have hlt := s.timer.clock_lt_next he
  refine ⟨latest, hlatest, hlt, hdue, fun hlast => ?_⟩
  rcases hdue with hdue | ⟨now, hmem, -, hinterval, hdays⟩
  · omega
  · rcases lt_or_ge latest (now / 10 ^ 9) with hafter | hbefore
    · obtain ⟨hle, o, hsteady⟩ := hlast now hmem hafter
      have := hdays o hsteady
      omega
    · omega

section Sample

noncomputable def threeDays : Managed :=
  ⟨⟨exactSolve, fun _ => ""⟩, fun _ => none, .fixed 0, 30, ⟨"default", "report"⟩, 259200⟩

def fallingPrice (date : Int) (k : Nat) : Rat := if k = 44 then -date else 1

def fallingDay (date : Int) : List PricedWindow := daySlots 30 (fallingPrice date) date

def evening (date : Int) : Int := (date * 86400 + 72000) * 10 ^ 9

theorem today_evening (date : Int) : today threeDays.tz (evening date) = date := by
  simp only [today, dateOf, nowLocal, evening, WallClock.Zone.toLocal, threeDays,
    WallClock.Zone.fixed]
  omega

theorem fallingDay_reply (date : Int) : DayReply threeDays.tz date (fallingDay date) :=
  dayReply_daySlots (by decide) (WallClock.Zone.fixed_steady 0 (date * 86400) _) le_rfl le_rfl

theorem fallingPrice_lt (h : (date, k) ≠ (d + 1, 44)) (hd : date = d ∨ date = d + 1)
    (h0 : 0 ≤ d) : -((d + 1 : Int) : Rat) < fallingPrice date k := by
  rw [fallingPrice]
  split
  · rename_i hk
    rcases hd with rfl | rfl
    · push_cast
      linarith
    · exact absurd (by rw [hk]) h
  · have : (0 : Rat) ≤ d := by exact_mod_cast h0
    push_cast
    linarith

theorem fallingDay_today (d : Int) :
    DayReply threeDays.tz (today threeDays.tz (evening d)) (fallingDay d) := by
  rw [today_evening]
  exact fallingDay_reply d

theorem fallingDay_tomorrow (d : Int) : ∀ ws ∈ some (fallingDay (d + 1)),
    DayReply threeDays.tz (today threeDays.tz (evening d) + 1) ws := by
  intro ws hws
  cases hws
  rw [today_evening]
  exact fallingDay_reply (d + 1)

/-- Once the floor is passed, the evening's run always chooses 22:00 of the next day. -/
theorem choose_fallingDay (hd : 2 ≤ d) :
    threeDays.choose (evening d) (fallingDay d) (some (fallingDay (d + 1))) (some 0) =
      some ⟨d + 1, 22, 0⟩ := by
  have hslot : profileSlot 30 (fallingPrice (d + 1)) (d + 1) 44 ∈ fallingDay (d + 1) :=
    mem_daySlots.2 ⟨44, by decide, rfl⟩
  have hsteady : SteadyDays threeDays.tz (evening d) 0 := WallClock.Zone.fixed_steady _ _ _
  refine chooseWindow_of_mem (exactSolve_exact _) (by decide) _ rfl
    (chronological_pricePool hsteady (fallingDay_today d) (fallingDay_tomorrow d))
    (List.mem_append_right _ hslot) ?_ ?_
  · rintro f ⟨⟩
    have hepoch : slotEpoch (profileSlot 30 (fallingPrice (d + 1)) (d + 1) 44) threeDays.tz = _ :=
      slotEpoch_profileSlot (by decide) (WallClock.Zone.fixed_steady 0 ((d + 1) * 86400) _)
        (by decide) le_rfl le_rfl
    rw [hepoch, fireFloor_eq (by norm_num) (by norm_num [Managed.info, threeDays])]
    simp only [Managed.info, threeDays]
    omega
  · intro w hw hne
    rw [pricePool, List.mem_append] at hw
    rcases hw with hw | hw
    · obtain ⟨k, -, rfl⟩ := mem_daySlots.1 (List.mem_of_mem_filter hw)
      exact fallingPrice_lt (by simp) (.inl rfl) (by omega)
    · obtain ⟨k, -, rfl⟩ := mem_daySlots.1 hw
      refine fallingPrice_lt (fun h => hne ?_) (.inr rfl) (by omega)
      cases h
      rfl

theorem windowTs_tenPm {d : Int} (hd : 0 ≤ d) :
    (windowTs threeDays.tz ⟨d, 22, 0⟩ : Int) = d * 86400 + 79200 := by
  have hts : (windowTs threeDays.tz (profileSlot 30 (fallingPrice d) d 44).toChosen : Int) = _ :=
    windowTs_profileSlot (by decide) (WallClock.Zone.fixed_steady 0 (d * 86400) _) (by decide)
      le_rfl le_rfl (by omega)
  exact hts.trans (by omega)

theorem postponed_night {d : Int} (hd : 2 ≤ d) (hclock : s.timer.clock = d * 86400 + 72000)
    (hfirings : s.timer.firings = [0]) :
    ∃ s', Relation.ReflTransGen (NightStep threeDays) s s' ∧
      s'.timer.clock = (d + 1) * 86400 + 72000 ∧ s'.timer.firings = [0] ∧
      s'.lastRephase = some (evening d) := by
  have hchoice : threeDays.choose (evening d) (fallingDay d) (some (fallingDay (d + 1)))
      (recorded 0 s.timer.firings) = some ⟨d + 1, 22, 0⟩ := by
    rw [hfirings]
    exact choose_fallingDay hd
  have hrun : NightStep threeDays s
      (threeDays.runAt (evening d) (fallingDay d) (some (fallingDay (d + 1))) s) := by
    have hnow : evening d / 10 ^ 9 = s.timer.clock := by
      rw [hclock, evening]
      omega
    exact .run _ _ _ hnow fun _ _ => ⟨fallingDay_today d, fallingDay_tomorrow d⟩
  generalize hs₁ : threeDays.runAt (evening d) (fallingDay d) (some (fallingDay (d + 1))) s = s₁
    at hrun
  have htimer : s₁.timer = threeDays.update (some ⟨d + 1, 22, 0⟩) s.timer := by
    rw [← hs₁, Managed.runAt, hchoice]
  have hlastRun : s₁.lastRun = d * 86400 + 72000 := by
    rw [← hs₁, Managed.runAt, hclock]
  have hrephase : s₁.lastRephase = some (evening d) := by
    rw [← hs₁, Managed.runAt, hchoice]
    rfl
  have hclock₁ : s₁.timer.clock = d * 86400 + 72000 := by
    rw [htimer, Managed.clock_update, hclock]
  have hevery : (threeDays.everySecs : Int) = 259200 := rfl
  have hnext : s₁.timer.next threeDays.everySecs = (d + 1) * 86400 + 79200 := by
    rw [htimer, threeDays.next_update (by decide), windowTs_tenPm (by omega), hclock]
    exact (OnGrid.self _ _).eq_nextAfter (by omega) (by omega)
  have hwait := reach_wait threeDays s₁ (n := 86400) (by omega)
  rw [Timer.wait_of_lt (by omega) s₁.timer (by omega)] at hwait
  refine ⟨_, .head hrun hwait, ?_, ?_, hrephase⟩
  · simp only [hclock₁]
    omega
  · simp only [htimer, Managed.firings_update, hfirings]

def beforeDue : Nights := ⟨⟨244800, 0, [0]⟩, 244800, none⟩

theorem beforeDue_initial : beforeDue.Initial threeDays 0 :=
  ⟨rfl, by decide, by decide, rfl, rfl⟩

theorem postponed_nights (n : Nat) :
    ∃ s, Relation.ReflTransGen (NightStep threeDays) beforeDue s ∧
      s.timer.clock = (3 + n) * 86400 + 72000 ∧ s.timer.firings = [0] ∧
      s.lastRephase = some (evening (2 + n)) := by
  induction n with
  | zero => exact postponed_night (d := 2) le_rfl rfl rfl
  | succ n ih =>
    obtain ⟨s, hreach, hclock, hfirings, -⟩ := ih
    obtain ⟨s', hreach', hclock', hfirings', hrephase'⟩ :=
      postponed_night (d := 3 + n) (by omega) hclock hfirings
    refine ⟨s', hreach.trans hreach', ?_, hfirings', ?_⟩
    · push_cast
      omega
    · rw [hrephase', show (3 + n : Int) = 2 + (n + 1 : Nat) by push_cast; ring]

def autumn : Managed :=
  ⟨⟨fun _ => .ok fun _ => .infinity false, fun _ => ""⟩, fun _ => none, london, 30,
    ⟨"default", "report"⟩, 259200⟩

/-- Midnight of the day on which the clocks go back, a minute before the schedule is due. -/
def longMidnight : Nights := ⟨⟨1729983600, 1729724460, [1729724460]⟩, 1729983600, none⟩

theorem choose_longMidnight :
    autumn.choose 1729983600000000000 [] (some [⟨20024, 23, 30, 5⟩])
      (recorded 0 longMidnight.timer.firings) = some ⟨20024, 23, 30⟩ :=
  rfl

theorem longMidnight_reply (o : Int) (_ : SteadyDays autumn.tz 1729983600000000000 o) :
    DayReply autumn.tz (today autumn.tz 1729983600000000000) [] ∧
      ∀ ws ∈ some [(⟨20024, 23, 30, 5⟩ : PricedWindow)],
        DayReply autumn.tz (today autumn.tz 1729983600000000000 + 1) ws := by
  refine ⟨⟨by decide, by decide, by decide⟩, ?_⟩
  rintro ws ⟨⟩
  exact ⟨by decide, by decide, by decide⟩

/-- A run that finds no prices leaves the schedule alone. -/
theorem runAt_nil (env : Managed) (now : Int) (s : Nights) :
    env.runAt now [] none s = { s with lastRun := s.timer.clock } := by
  have hchoice : env.choose now [] none (recorded 0 s.timer.firings) = none := by
    cases hc : env.choose now [] none (recorded 0 s.timer.firings) with
    | none => rfl
    | some w =>
      obtain ⟨t, -⟩ := chooseWindow_eligible hc
      exact t.elim0
  rw [Managed.runAt, hchoice]
  rfl

theorem reach_quiet_day {m : Timer} (env : Managed) (hpos : 0 < env.everySecs)
    (rephased : Option Int) (hahead : m.clock + 86400 < m.next env.everySecs) :
    Relation.ReflTransGen (NightStep env) ⟨m, m.clock, rephased⟩
      ⟨{ m with clock := m.clock + 86400 }, m.clock + 86400, rephased⟩ := by
  have hwait := reach_wait env ⟨m, m.clock, rephased⟩ (n := 86400) le_rfl
  rw [Timer.wait_of_lt (by omega) m hahead] at hwait
  have hrun : NightStep env ⟨{ m with clock := m.clock + (86400 : Nat) }, m.clock, rephased⟩ _ :=
    .run ((m.clock + 86400) * 10 ^ 9) [] none (by simp only; omega)
      fun _ _ => ⟨⟨nofun, nofun, .nil⟩, nofun⟩
  rw [runAt_nil] at hrun
  exact hwait.tail hrun

theorem longMidnight_unfired :
    ∃ s, Relation.ReflTransGen (NightStep autumn) longMidnight s ∧
      s.timer.clock = 1730157400 ∧ s.timer.firings = [1729724460] ∧
      s.lastRephase = some 1729983600000000000 := by
  have hrun : NightStep autumn longMidnight
      (autumn.runAt 1729983600000000000 [] (some [⟨20024, 23, 30, 5⟩]) longMidnight) :=
    .run _ _ _ rfl longMidnight_reply
  have hupdate : autumn.update (some ⟨20024, 23, 30⟩) longMidnight.timer =
      ⟨1729983600, 257400, [1729724460]⟩ := by decide
  rw [Managed.runAt, choose_longMidnight, hupdate] at hrun
  have hfirst := reach_quiet_day autumn (by decide) (some 1729983600000000000)
    (m := ⟨1729983600, 257400, [1729724460]⟩) (by decide)
  have hsecond := reach_quiet_day autumn (by decide) (some 1729983600000000000)
    (m := ⟨1730070000, 257400, [1729724460]⟩) (by decide)
  have hthird := reach_wait autumn (n := 1000)
    ⟨⟨1730156400, 257400, [1729724460]⟩, 1730156400, some 1729983600000000000⟩ (by decide)
  rw [Timer.wait_of_lt (by decide) _ (by decide)] at hthird
  exact ⟨_, .head hrun (hfirst.trans (hsecond.trans hthird)), rfl, rfl, rfl⟩

/-- Nightly runs hold the job back past every bound: here for three days after it was due. And a
single run does so for more than two days when they are the two of an autumn clock change. -/
theorem nights_bound_fails :
    (beforeDue.Initial threeDays 0 ∧
      ∃ s, Relation.ReflTransGen (NightStep threeDays) beforeDue s ∧ s.timer.firings = [0] ∧
        ¬ s.timer.clock ≤ 0 + threeDays.everySecs + 172800) ∧
    longMidnight.Initial autumn 1729724460 ∧
      ∃ s, Relation.ReflTransGen (NightStep autumn) longMidnight s ∧
        s.timer.firings = [1729724460] ∧
        (∀ now ∈ s.lastRephase, now / 10 ^ 9 ≤ 1729724460 + autumn.everySecs) ∧
        ¬ s.timer.clock ≤ 1729724460 + autumn.everySecs + 172800 := by
  constructor
  · obtain ⟨s, hreach, hclock, hfirings, -⟩ := postponed_nights 3
    refine ⟨beforeDue_initial, s, hreach, hfirings, ?_⟩
    have hevery : (threeDays.everySecs : Int) = 259200 := rfl
    omega
  · obtain ⟨s, hreach, hclock, hfirings, hrephase⟩ := longMidnight_unfired
    have hevery : (autumn.everySecs : Int) = 259200 := rfl
    refine ⟨⟨rfl, by decide, by decide, rfl, rfl⟩, s, hreach, hfirings, ?_, by omega⟩
    intro now hnow
    rw [hrephase, Option.mem_some_iff] at hnow
    omega

/-- Moved by one run before it was due, the job waits for less than two days; moved again each
night, it waits for less than two days after the night before. -/
theorem nights_bound_postponed :
    (∃ s, Relation.ReflTransGen (NightStep threeDays) beforeDue s ∧
      s.lastRephase = some (evening 2) ∧ 0 + threeDays.everySecs < s.timer.clock ∧
      s.timer.clock ≤ 0 + threeDays.everySecs + 172800) ∧
    ∃ s, Relation.ReflTransGen (NightStep threeDays) beforeDue s ∧
      s.lastRephase = some (evening 4) ∧ 0 + threeDays.everySecs < s.timer.clock ∧
      s.timer.next threeDays.everySecs < evening 4 / 10 ^ 9 + 172800 := by
  have hevery : (threeDays.everySecs : Int) = 259200 := rfl
  constructor
  · obtain ⟨s, hreach, hclock, hfirings, hrephase⟩ := postponed_nights 0
    obtain ⟨latest, hlatest, -, -, hbound⟩ := nights_bound threeDays beforeDue s 0 (by decide)
      beforeDue_initial hreach
    rw [hfirings] at hlatest
    cases hlatest
    refine ⟨s, hreach, hrephase, by omega, hbound fun now hnow _ => ?_⟩
    rw [hrephase] at hnow
    cases hnow
    exact ⟨by decide, 0, WallClock.Zone.fixed_steady _ _ _⟩
  · obtain ⟨s, hreach, hclock, hfirings, hrephase⟩ := postponed_nights 2
    obtain ⟨latest, hlatest, hnext, hdue, -⟩ := nights_bound threeDays beforeDue s 0 (by decide)
      beforeDue_initial hreach
    rw [hfirings] at hlatest
    cases hlatest
    refine ⟨s, hreach, hrephase, by omega, ?_⟩
    rcases hdue with hdue | ⟨now, hnow, hsince⟩
    · omega
    · rw [hrephase] at hnow
      cases hnow
      exact hsince.days 0 (WallClock.Zone.fixed_steady _ _ _)

end Sample

end Gridshift
