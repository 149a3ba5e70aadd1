import Gridshift.ManagedSchedule
import Gridshift.IntervalGuard

namespace Gridshift
open IntervalGrid PeriodicTimer
set_option autoImplicit true

inductive Progress where
  | idle
  | described (lastFire : Option Int)
  | planned (lastFire : Option Int) (w : ChosenWindow)
  | updated
deriving DecidableEq, Repr

structure Interleaved where
  timer : Timer
  progress : Progress
deriving DecidableEq, Repr

structure PriceView where
  now : Int
  todayWindows : List PricedWindow
  tomorrowWindows : Option (List PricedWindow)

/-- Time passes, or the run takes its next step, in any order. -/
inductive RunStep (env : Managed) (view : PriceView) : Interleaved → Interleaved → Prop where
  | tick : RunStep env view s { s with timer := s.timer.tick env.everySecs }
  | describe (h : s.progress = .idle) :
    RunStep env view s { s with progress := .described (recorded 0 s.timer.firings) }
  | plan {s : Interleaved} (h : s.progress = .described lastFire)
    (hchoice : env.choose view.now view.todayWindows view.tomorrowWindows lastFire = some w)
    (hfuture : s.timer.clock < windowTs env.tz w) :
    RunStep env view s { s with progress := .planned lastFire w }
  | update (h : s.progress = .planned lastFire w) :
    RunStep env view s ⟨env.update (some w) s.timer, .updated⟩

/-- The schedule has not fired since the run described it, and the guard's sum does not overflow;
or the slot has passed and the schedule has not fired after it. -/
def Undisturbed (env : Managed) (lastFire : Option Int) (w : ChosenWindow) (m : Timer) : Prop :=
  (recorded 0 m.firings = lastFire ∧ ∀ f ∈ lastFire, f + (env.everySecs : Int) < 2 ^ 63) ∨
    (windowTs env.tz w : Int) ≤ m.clock ∧ ∀ f ∈ m.firings.head?, f ≤ windowTs env.tz w

/-- A step of a run whose update finds the schedule undisturbed. -/
def SafeStep (env : Managed) (view : PriceView) (s s' : Interleaved) : Prop :=
  RunStep env view s s' ∧
    ∀ lastFire w, s.progress = .planned lastFire w → s'.progress = .updated →
      Undisturbed env lastFire w s.timer

def PriceView.pool (view : PriceView) (tz : Tz) : List PricedWindow :=
  pricePool tz view.now view.todayWindows view.tomorrowWindows

/-- A run begins: the schedule has kept its interval so far, and the interval is longer than the
span of the run's pool. -/
structure Interleaved.Begins (env : Managed) (view : PriceView) (s : Interleaved) : Prop where
  idle : s.progress = .idle
  clock_nonneg : 0 ≤ s.timer.clock
  onTime : s.timer.OnTime env.everySecs
  past : ∀ f ∈ s.timer.firings, 0 ≤ f ∧ f ≤ s.timer.clock
  chronological : Chronological (view.pool env.tz) env.tz
  span : ∀ w ∈ view.pool env.tz,
    (windowTs env.tz w.toChosen : Int) ≤ s.timer.clock + env.everySecs

def Progress.lastFire? : Progress → Option (Option Int)
  | .described lastFire => some lastFire
  | .planned lastFire _ => some lastFire
  | _ => none

/-- What the steps of a run that began at `start` keep, until the update and beyond: firings are
past and in order, and what the run knows of them is current unless one came after the start. -/
structure Interleaved.Tracked (env : Managed) (view : PriceView) (start : Int)
    (s : Interleaved) : Prop where
  clock_nonneg : 0 ≤ s.timer.clock
  started : start ≤ s.timer.clock
  past : ∀ f ∈ s.timer.firings, 0 ≤ f ∧ f ≤ s.timer.clock
  ordered : s.timer.firings.Pairwise (· ≥ ·)
  read : ∀ lastFire ∈ s.progress.lastFire?,
    recorded 0 s.timer.firings = lastFire ∨ ∃ f ∈ s.timer.firings.head?, start < f
  chosen : ∀ lastFire w, s.progress = .planned lastFire w →
    env.choose view.now view.todayWindows view.tomorrowWindows lastFire = some w

theorem lastUpTo_phaseOf {everySecs ts : Nat} (hpos : 0 < everySecs) (now : Int) :
    lastUpTo everySecs (phaseOf ts everySecs) now = lastUpTo everySecs ts now := by
  rw [lastUpTo, lastUpTo, phaseOf, if_pos hpos, Int.natCast_emod, Int.sub_emod_emod]

/-- A clock that records each firing at its own second reads back the latest one. -/
theorem recorded_head? {firings : List Int} (h0 : ∀ f ∈ firings, 0 ≤ f)
    (hordered : firings.Pairwise (· ≥ ·)) : recorded 0 firings = firings.head? := by
  cases firings with
  | nil => rfl
  | cons f fs =>
    rw [recorded_cons le_rfl (h0 f List.mem_cons_self) (List.pairwise_cons.1 hordered).1]
    simp

theorem Interleaved.Begins.tracked (hpos : 0 < env.everySecs)
    (h : Interleaved.Begins env view s) : s.Tracked env view s.timer.clock where
  clock_nonneg := h.clock_nonneg
  started := le_rfl
  past := h.past
  ordered := by
    have hchain : s.timer.firings.IsChain (· ≥ ·) :=
      h.onTime.spaced.imp fun later earlier hle => by omega
    exact hchain.pairwise
  read := by
    rw [h.idle]
    exact nofun
  chosen := by
    rw [h.idle]
    exact nofun

theorem Interleaved.Tracked.tick (hpos : 0 < env.everySecs)
    (h : Interleaved.Tracked env view start s) :
    Interleaved.Tracked env view start { s with timer := s.timer.tick env.everySecs } := by
  obtain ⟨h0, hstart, hpast, hordered, hread, hchosen⟩ := h
  have he : (0 : Int) < env.everySecs := by omega
  have hclock : (s.timer.tick env.everySecs).clock = s.timer.clock + 1 := rfl
  rcases s.timer.tick_cases he with ⟨hnow, hfirings, -⟩ | ⟨-, hfirings, -⟩
  · refine ⟨by simp only [hclock]; omega, by simp only [hclock]; omega, ?_, ?_,
      fun _ _ => .inr ?_, hchosen⟩
    · rw [hfirings, hclock, hnow]
      intro f hf
      rcases List.mem_cons.1 hf with rfl | hf
      · exact ⟨by omega, le_rfl⟩
      · have := hpast f hf
        omega
    · rw [hfirings, List.pairwise_cons]
      exact ⟨fun f hf => by have := hpast f hf; omega, hordered⟩
    · rw [hfirings]
      exact ⟨_, rfl, by omega⟩
  · refine ⟨by simp only [hclock]; omega, by simp only [hclock]; omega, fun f hf => ?_, ?_, ?_,
      hchosen⟩
    · have := hpast f (hfirings ▸ hf)
      simp only [hclock]
      omega
    · rw [hfirings]
      exact hordered
    · rw [hfirings]
      exact hread

theorem Interleaved.Tracked.step (hpos : 0 < env.everySecs)
    (h : Interleaved.Tracked env view start s) (hstep : RunStep env view s s') :
    Interleaved.Tracked env view start s' := by
  cases hstep with
  | tick => exact h.tick hpos
  | describe =>
    refine ⟨h.clock_nonneg, h.started, h.past, h.ordered, ?_, nofun⟩
    rintro _ ⟨⟩
    exact .inl rfl
  | plan hdescribed hchoice =>
    refine ⟨h.clock_nonneg, h.started, h.past, h.ordered, ?_, ?_⟩
    · rintro _ ⟨⟩
      exact h.read _ (by rw [hdescribed]; rfl)
    · rintro _ _ ⟨⟩
      exact hchoice
  | update =>
    refine ⟨?_, ?_, ?_, ?_, nofun, nofun⟩
    · rw [Managed.clock_update]
      exact h.clock_nonneg
    · rw [Managed.clock_update]
      exact h.started
    · rw [Managed.firings_update, Managed.clock_update]
      exact h.past
    · rw [Managed.firings_update]
      exact h.ordered

theorem Interleaved.Tracked.of_reach (hpos : 0 < env.everySecs)
    (h : Interleaved.Tracked env view start s)
    (hreach : Relation.ReflTransGen (RunStep env view) s s') :
    Interleaved.Tracked env view start s' := by
  induction hreach with
  | refl => exact h
  | tail _ hstep ih => exact ih.step hpos hstep

/-- The slot that a run has planned lies an interval after the firing it knows of. -/
theorem Interleaved.Tracked.floor_le (h : Interleaved.Tracked env view start s)
    (hinc : Chronological (view.pool env.tz) env.tz)
    (hplanned : s.progress = .planned (some f) w) (h0 : 0 ≤ f)
    (hfit : f + (env.everySecs : Int) < 2 ^ 63) :
    f + env.everySecs ≤ (windowTs env.tz w : Int) := by
  obtain ⟨t, ht, rfl⟩ := chooseWindow_eligible (h.chosen _ _ hplanned)
  have hslot := eligible_le_slotEpoch hinc ht h0 hfit
  simp only [Managed.info] at hslot
  exact hslot.trans_eq (windowTs_eq_slotEpoch (by omega)).symm

theorem Interleaved.Tracked.windowTs_le (h : Interleaved.Tracked env view start s)
    (hspan : ∀ w ∈ view.pool env.tz, (windowTs env.tz w.toChosen : Int) ≤ start + env.everySecs)
    (hplanned : s.progress = .planned lastFire w) :
    (windowTs env.tz w : Int) ≤ start + env.everySecs := by
  obtain ⟨t, -, rfl⟩ := chooseWindow_eligible (h.chosen _ _ hplanned)
  exact hspan _ (List.get_mem _ t)

theorem Interleaved.Tracked.le_lastUpTo (hpos : 0 < env.everySecs)
    (h : Interleaved.Tracked env view start s)
    (hinc : Chronological (view.pool env.tz) env.tz)
    (hspan : ∀ w ∈ view.pool env.tz, (windowTs env.tz w.toChosen : Int) ≤ start + env.everySecs)
    (hplanned : s.progress = .planned lastFire w) (hsafe : Undisturbed env lastFire w s.timer) :
    ∀ f ∈ s.timer.firings.head?,
      f ≤ lastUpTo env.everySecs (windowTs env.tz w) s.timer.clock := by
  intro f hf
  have he : (0 : Int) < env.everySecs := by omega
  have hstarted := h.started
  have hclose := h.windowTs_le hspan hplanned
  have hself := OnGrid.self (env.everySecs : Int) (windowTs env.tz w)
  rcases hsafe with ⟨hread, hfit⟩ | ⟨hpassed, hle⟩
  · rw [recorded_head? (fun f hf => (h.past f hf).1) h.ordered, Option.mem_def.1 hf] at hread
    subst hread
    have hfloor := h.floor_le hinc hplanned (h.past f (List.mem_of_mem_head? hf)).1 (hfit f rfl)
    rcases lt_or_ge s.timer.clock (windowTs env.tz w) with hahead | hpassed
    · rw [lastUpTo_of_close (by omega) (by omega), if_pos hahead]
      omega
    · have := hself.le_lastUpTo he hpassed
      omega
  · exact (hle f hf).trans (hself.le_lastUpTo he hpassed)

theorem SafeStep.onTime (hpos : 0 < env.everySecs) (h : SafeStep env view s s')
    (htracked : Interleaved.Tracked env view start s)
    (hinc : Chronological (view.pool env.tz) env.tz)
    (hspan : ∀ w ∈ view.pool env.tz, (windowTs env.tz w.toChosen : Int) ≤ start + env.everySecs)
    (hs : s.timer.OnTime env.everySecs) : s'.timer.OnTime env.everySecs := by
  obtain ⟨hstep, hsafe⟩ := h
  cases hstep with
  | tick => exact hs.tick (by omega)
  | describe => exact hs
  | plan => exact hs
  | update hplanned =>
    apply hs.rephase
    intro f hf
    rw [lastUpTo_phaseOf hpos]
    exact htracked.le_lastUpTo hpos hinc hspan hplanned (hsafe _ _ hplanned rfl) f hf

/-- The update of a slot that is at most an interval past keeps the interval after the latest
firing exactly when it finds the schedule undisturbed. -/
theorem Interleaved.Tracked.due_update_iff (hpos : 0 < env.everySecs)
    (h : Interleaved.Tracked env view start s)
    (hinc : Chronological (view.pool env.tz) env.tz)
    (hspan : ∀ w ∈ view.pool env.tz, (windowTs env.tz w.toChosen : Int) ≤ start + env.everySecs)
    (hplanned : s.progress = .planned lastFire w)
    (hfit : ∀ f ∈ lastFire, f + (env.everySecs : Int) < 2 ^ 63)
    (hwithin : s.timer.clock < windowTs env.tz w + env.everySecs) :
    (∀ f ∈ s.timer.firings.head?, f + env.everySecs ≤
        (env.update (some w) s.timer).next env.everySecs) ↔
      Undisturbed env lastFire w s.timer := by
  have hstarted := h.started
  have hclose := h.windowTs_le hspan hplanned
  have hlast := lastUpTo_of_close (by omega) hwithin
  rw [env.next_update hpos, ← lastUpTo_add_every]
  constructor
  · intro hdue
    rcases lt_or_ge s.timer.clock (windowTs env.tz w) with hahead | hpassed
    · rcases h.read lastFire (by rw [hplanned]; rfl) with hread | ⟨f, hf, hlate⟩
      · exact .inl ⟨hread, hfit⟩
      · have := hdue f hf
        rw [hlast, if_pos hahead] at this
        omega
    · refine .inr ⟨hpassed, fun f hf => ?_⟩
      have := hdue f hf
      rw [hlast, if_neg (by omega)] at this
      omega
  · intro hsafe f hf
    have := h.le_lastUpTo hpos hinc hspan hplanned hsafe f hf
    omega

/-- In every run whose update finds the schedule undisturbed, whatever happens between its steps,
any two consecutive firings are an interval apart, and so are the latest and the next; and an
update within an interval of its slot keeps them so only if it does. -/
theorem interleaved_spaced (env : Managed) (view : PriceView) (initial : Interleaved)
    (hpos : 0 < env.everySecs) (hbegins : initial.Begins env view) :
    (∀ s, Relation.ReflTransGen (SafeStep env view) initial s →
      (s.timer.firings.IsChain fun later earlier : Int => earlier + env.everySecs ≤ later) ∧
        ∀ f ∈ s.timer.firings.head?, f + env.everySecs ≤ s.timer.next env.everySecs) ∧
    ∀ s lastFire w, Relation.ReflTransGen (RunStep env view) initial s →
      s.progress = .planned lastFire w →
      (∀ f ∈ lastFire, f + (env.everySecs : Int) < 2 ^ 63) →
      s.timer.clock < windowTs env.tz w + env.everySecs →
      ((∀ f ∈ s.timer.firings.head?, f + env.everySecs ≤
          (env.update (some w) s.timer).next env.everySecs) ↔
        Undisturbed env lastFire w s.timer) := by
  have htracked := hbegins.tracked hpos
  constructor
  · intro s hreach
    have hs : s.Tracked env view initial.timer.clock ∧ s.timer.OnTime env.everySecs := by
      induction hreach with
      | refl => exact ⟨htracked, hbegins.onTime⟩
      | tail _ hstep ih =>
        exact ⟨ih.1.step hpos hstep.1,
          hstep.onTime hpos ih.1 hbegins.chronological hbegins.span ih.2⟩
    exact ⟨hs.2.spaced, hs.2.due⟩
  · intro s lastFire w hreach hplanned hfit hwithin
    exact (htracked.of_reach hpos hreach).due_update_iff hpos hbegins.chronological hbegins.span
      hplanned hfit hwithin

theorem safeStep_wait (env : Managed) (view : PriceView) (s : Interleaved) (n : Nat) :
    Relation.ReflTransGen (SafeStep env view) s
      { s with timer := s.timer.wait env.everySecs n } := by
  induction n with
  | zero => exact .refl
  | succ n ih =>
    rw [Timer.wait_succ]
    refine .tail ih ⟨.tick, fun _ _ hplanned hupdated => ?_⟩
    rw [hplanned] at hupdated
    cases hupdated

theorem runStep_wait (env : Managed) (view : PriceView) (s : Interleaved) (n : Nat) :
    Relation.ReflTransGen (RunStep env view) s
      { s with timer := s.timer.wait env.everySecs n } :=
  Relation.ReflTransGen.mono (fun _ _ h => h.1) _ _ (safeStep_wait env view s n)

section Sample

def report : Managed :=
  ⟨⟨fun _ => .ok fun _ => .infinity false, fun _ => ""⟩, fun _ => none, .fixed 0, 30,
    ⟨"default", "report"⟩, 259200⟩

def beforeMidnight : PriceView := ⟨259140000000000, [], some [⟨3, 22, 0, 5⟩]⟩

def dueAtMidnight : Interleaved := ⟨⟨259140, 0, [0]⟩, .idle⟩

theorem dueAtMidnight_begins : dueAtMidnight.Begins report beforeMidnight where
  idle := rfl
  clock_nonneg := by decide
  onTime := ⟨.singleton _, by rintro f ⟨⟩; decide⟩
  past := by decide
  chronological := by decide
  span := by decide

theorem choose_beforeMidnight :
    report.choose beforeMidnight.now beforeMidnight.todayWindows beforeMidnight.tomorrowWindows
      (some 0) = some ⟨3, 22, 0⟩ :=
  rfl

/-- The schedule fires at midnight, between its plan and its update. -/
theorem dueAtMidnight_planned :
    Relation.ReflTransGen (RunStep report beforeMidnight) dueAtMidnight
      ⟨⟨259200, 0, [259200, 0]⟩, .planned (some 0) ⟨3, 22, 0⟩⟩ := by
  have hmidnight := runStep_wait report beforeMidnight
    ⟨dueAtMidnight.timer, .planned (some 0) ⟨3, 22, 0⟩⟩ 60
  rw [Timer.wait_of_eq (by decide) _ (by decide)] at hmidnight
  exact .head (.describe rfl) (.head (.plan rfl choose_beforeMidnight (by decide)) hmidnight)

/-- The update moves it to 22:00, when it fires again. -/
theorem interleaved_fires_twice :
    dueAtMidnight.Begins report beforeMidnight ∧
      ∃ s, Relation.ReflTransGen (RunStep report beforeMidnight) dueAtMidnight s ∧
        s.timer.firings = [338400, 259200, 0] ∧
        ¬ s.timer.firings.IsChain fun later earlier : Int => earlier + report.everySecs ≤ later := by
  have hsecond := (dueAtMidnight_planned.tail (.update rfl)).trans
    (runStep_wait report beforeMidnight _ 79200)
  rw [Timer.wait_of_eq (by decide) _ (by decide)] at hsecond
  refine ⟨dueAtMidnight_begins, _, hsecond, by decide, ?_⟩
  intro h
  exact absurd (List.isChain_cons_cons.1 h).1 (by decide)

def eveningView : PriceView := ⟨244800000000000, [], some [⟨3, 22, 0, 5⟩]⟩

def dueTomorrow : Interleaved := ⟨⟨244800, 0, [0]⟩, .idle⟩

theorem dueTomorrow_begins : dueTomorrow.Begins report eveningView where
  idle := rfl
  clock_nonneg := by decide
  onTime := ⟨.singleton _, by rintro f ⟨⟩; decide⟩
  past := by decide
  chronological := by decide
  span := by decide

/-- A minute passes before each step of the run, and the schedule fires in its new slot. -/
theorem dueTomorrow_fires :
    Relation.ReflTransGen (SafeStep report eveningView) dueTomorrow
      ⟨⟨338400, 79200, [338400, 0]⟩, .updated⟩ := by
  have hdescribe := (safeStep_wait report eveningView dueTomorrow 60).tail
    ⟨.describe rfl, nofun⟩
  rw [Timer.wait_of_lt (by decide) _ (by decide)] at hdescribe
  have hplan := (hdescribe.trans (safeStep_wait report eveningView _ 60)).tail
    ⟨.plan rfl choose_beforeMidnight (by decide), nofun⟩
  rw [Timer.wait_of_lt (by decide) _ (by decide)] at hplan
  have hupdate := (hplan.trans (safeStep_wait report eveningView _ 60)).tail ⟨.update rfl, by
    rintro _ _ ⟨⟩ -
    exact .inl ⟨by decide, by decide⟩⟩
  rw [Timer.wait_of_lt (by decide) _ (by decide)] at hupdate
  have hfires := hupdate.trans (safeStep_wait report eveningView _ 93420)
  rwa [Timer.wait_of_eq (by decide) _ (by decide)] at hfires

/-- The schedule of an undisturbed run fires in its slot an interval or more after its last
firing; the one that fires at midnight is disturbed, and fires too early. -/
theorem interleaved_spaced_report :
    (∃ s, Relation.ReflTransGen (SafeStep report eveningView) dueTomorrow s ∧
      s.timer.firings = [338400, 0] ∧ (0 + 259200 : Int) ≤ 338400 ∧
      338400 + 259200 ≤ s.timer.next report.everySecs) ∧
    ∃ s, Relation.ReflTransGen (RunStep report beforeMidnight) dueAtMidnight s ∧
      s.progress = .planned (some 0) ⟨3, 22, 0⟩ ∧
      ¬ Undisturbed report (some 0) ⟨3, 22, 0⟩ s.timer ∧
      ¬ ∀ f ∈ s.timer.firings.head?, f + report.everySecs ≤
        (report.update (some ⟨3, 22, 0⟩) s.timer).next report.everySecs := by
  constructor
  · obtain ⟨hspaced, hdue⟩ := (interleaved_spaced report eveningView dueTomorrow (by decide)
      dueTomorrow_begins).1 _ dueTomorrow_fires
    exact ⟨_, dueTomorrow_fires, rfl, (List.isChain_cons_cons.1 hspaced).1, hdue _ rfl⟩
  · have hiff := (interleaved_spaced report beforeMidnight dueAtMidnight (by decide)
      dueAtMidnight_begins).2 _ (some 0) ⟨3, 22, 0⟩ dueAtMidnight_planned rfl (by decide)
      (by decide)
    have hdisturbed : ¬ Undisturbed report (some 0) ⟨3, 22, 0⟩
        ⟨259200, 0, [259200, 0]⟩ := by
      rintro (⟨hread, -⟩ | ⟨hpassed, -⟩)
      · exact absurd hread (by decide)
      · exact absurd hpassed (by decide)
    exact ⟨_, dueAtMidnight_planned, rfl, hdisturbed, fun h => hdisturbed (hiff.1 h)⟩

end Sample

end Gridshift
