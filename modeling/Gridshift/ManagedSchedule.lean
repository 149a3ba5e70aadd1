import Gridshift.SingleRun
import Gridshift.Firing
import Gridshift.PeriodicTimer

namespace Gridshift
open IntervalGrid PeriodicTimer
set_option autoImplicit true

/-- One schedule of a single interval, and what stays the same from run to run. -/
structure Managed where
  lib : Libraries
  scheduleDurations : ScheduleRef → Option Nat
  tz : Tz
  slotDurationMins : Nat
  ref : ScheduleRef
  everySecs : Nat

/-- What discovery reads of firings that the server records `delay` nanoseconds late. -/
def recorded (delay : Int) (firings : List Int) : Option Int :=
  lastFireSecs (firings.map fun f : Int => some (f * 10 ^ 9 + delay))

def Managed.info (env : Managed) (lastFire : Option Int) : ScheduleInfo :=
  ⟨env.ref.namespace, env.ref.scheduleId, env.everySecs, lastFire⟩

/-- The window that a run plans for the schedule from a last firing and a pool. -/
def Managed.choose (env : Managed) (now : Int) (todayWindows : List PricedWindow)
    (tomorrowWindows : Option (List PricedWindow)) (lastFire : Option Int) :
    Option ChosenWindow :=
  chooseWindow env.lib env.scheduleDurations env.tz env.slotDurationMins (now / 10 ^ 9)
    (pricePool env.tz now todayWindows tomorrowWindows) (env.info lastFire)

/-- The update that follows a run: a new phase, or the old spec where nothing was chosen. -/
def Managed.update (env : Managed) (choice : Option ChosenWindow) (m : Timer) : Timer :=
  choice.elim m fun w => m.rephase (phaseOf (windowTs env.tz w) env.everySecs)

theorem Managed.next_update (env : Managed) (hpos : 0 < env.everySecs) (w : ChosenWindow)
    (m : Timer) :
    (env.update (some w) m).next env.everySecs =
      nextAfter env.everySecs (windowTs env.tz w) m.clock := by
  rw [update, Option.elim_some, Timer.next_rephase, phaseOf, if_pos hpos, Int.natCast_emod,
    nextAfter_emod]

@[simp] theorem Managed.firings_update (env : Managed) (choice : Option ChosenWindow)
    (m : Timer) : (env.update choice m).firings = m.firings := by
  cases choice with
  | none => rfl
  | some w => exact Timer.firings_rephase _ m

@[simp] theorem Managed.clock_update (env : Managed) (choice : Option ChosenWindow)
    (m : Timer) : (env.update choice m).clock = m.clock := by
  cases choice with
  | none => rfl
  | some w => exact Timer.clock_rephase _ m

theorem recorded_cons {f : Int} (hdelay : 0 ≤ delay) (h0 : 0 ≤ f) (hlatest : ∀ f' ∈ fs, f' ≤ f) :
    recorded delay (f :: fs) = some (f + delay / 10 ^ 9) := by
  rw [← Option.mem_def, recorded, mem_lastFireSecs_iff]
  refine ⟨⟨f * 10 ^ 9 + delay, List.mem_cons_self, by omega, by omega⟩, ?_⟩
  intro t ht _
  obtain ⟨f', hf', he⟩ := List.mem_map.1 ht
  have hle : f' ≤ f := by
    rcases List.mem_cons.1 hf' with rfl | hf'
    · exact le_rfl
    · exact hlatest f' hf'
  cases he
  omega

theorem Managed.choose_span (env : Managed) (hsteady : SteadyDays env.tz now o)
    (htoday : DayReply env.tz (today env.tz now) todayWindows)
    (htomorrow : ∀ ws ∈ tomorrowWindows, DayReply env.tz (today env.tz now + 1) ws)
    (hnow : 0 ≤ now)
    (h : env.choose now todayWindows tomorrowWindows lastFire = some w) :
    now / 10 ^ 9 < windowTs env.tz w ∧ windowTs env.tz w < now / 10 ^ 9 + 172800 := by
  obtain ⟨t, -, rfl⟩ := chooseWindow_eligible h
  obtain ⟨-, hlt, hspan⟩ :=
    slotEpoch_mem_pricePool hsteady htoday htomorrow (List.getElem_mem t.isLt)
  rw [List.get_eq_getElem, windowTs_eq_slotEpoch (by omega)]
  exact ⟨hlt, hspan⟩

end Gridshift
