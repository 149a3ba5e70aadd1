import Gridshift.ClusterRun

namespace Gridshift
open Machine Sorting
set_option autoImplicit true

theorem UpdateEnv.carriedOut_of_mem_landedOn {env : UpdateEnv κ Calendar}
    {es : List (UpdateEvent κ Calendar)} (hk : k ∈ es.flatMap (env.landedOn ref)) :
    UpdateEvent.attempt k .carriedOut ∈ es := by
  obtain ⟨e, he, hk⟩ := List.mem_flatMap.1 hk
  rw [UpdateEnv.landedOn.eq_def] at hk
  split at hk
  · split at hk
    · rw [List.mem_singleton.1 hk]
      exact he
    · cases hk
  · cases hk

theorem everySecs_rephase {spec : ScheduleSpec Calendar}
    (h : rephase sdk ts (some spec) = .ok spec') : spec'.everySecs = spec.everySecs := by
  rw [ScheduleSpec.everySecs, interval_rephase h, List.filterMap_map]
  have hsame : (fun iv : IntervalSpec => iv.interval.map fun d => (max d.seconds 0).toNat) ∘
      (fun every => ⟨some (ofSecs every), some (ofSecs (phaseOf ts every))⟩) = some := by
    funext every
    simp only [Function.comp_apply, Option.map_some, ofSecs, Option.some.injEq]
    omega
  rw [hsame, List.filterMap_some]

theorem exists_of_firstIntervalSecs {spec : Option (ScheduleSpec Calendar)}
    (h : firstIntervalSecs spec = some secs) (hpos : 0 < secs) :
    ∃ old d phase rest, spec = some old ∧ old.interval = ⟨some d, phase⟩ :: rest ∧
      (max d.seconds 0).toNat = secs := by
  obtain ⟨iv, hiv, hsecs⟩ := Option.map_eq_some_iff.1 h
  obtain ⟨old, rfl, hhead⟩ := Option.bind_eq_some_iff.1 hiv
  obtain ⟨rest, hrest⟩ := List.head?_eq_some_iff.1 hhead
  cases iv with
  | mk interval phase =>
    cases interval with
    | none =>
      subst hsecs
      exact absurd hpos (lt_irrefl 0)
    | some d => exact ⟨old, d, phase, rest, rfl, hrest, hsecs⟩

/-- An update leaves the interval that discovery looks at as long as it was. -/
theorem firstIntervalSecs_rephase {spec : Option (ScheduleSpec Calendar)}
    (hsecs : firstIntervalSecs spec = some secs) (hpos : 0 < secs)
    (h : rephase sdk ts spec = .ok spec') : firstIntervalSecs (some spec') = some secs := by
  obtain ⟨old, d, phase, rest, rfl, hinterval, hd⟩ := exists_of_firstIntervalSecs hsecs hpos
  have hevery : old.everySecs = secs :: (ScheduleSpec.everySecs { old with interval := rest }) := by
    rw [ScheduleSpec.everySecs, hinterval, List.filterMap_cons, Option.map_some, hd]
    rfl
  rw [firstIntervalSecs, Option.bind_some, interval_rephase h, hevery]
  simp only [List.map_cons, List.head?_cons, Option.map_some, ofSecs, Option.getD_some,
    Option.some.injEq]
  omega

/-- One run of the workflow: what its calls meet, and the input that it is started with. -/
structure Night (Calendar : Type) where
  world : World Calendar
  orders : Orders
  lib : Libraries
  input : SchedulerInput
  updates : Nat → UpdateWindowsInput → Except String UpdateOutcome

def Night.assignments (tzdb : String → Option Tz) (night : Night Calendar) :
    List ScheduleAssignment :=
  dispatched night.lib tzdb (night.world.activitiesWith night.orders night.updates) night.input

theorem Night.exists_described {night : Night Calendar} (h : a ∈ night.assignments tzdb) :
    ∃ desc, night.world.discovery.describe a.scheduleRef = .ok desc ∧
      firstIntervalSecs desc.spec = some a.intervalSecs ∧ 0 < a.intervalSecs := by
  obtain ⟨now, tz, namespaces, priced, info, hplans⟩ := World.exists_plans h
  obtain ⟨desc, hthrough⟩ := World.letsThrough_of_mem hplans.discovered
  obtain ⟨durations, t, -, -, -, rfl⟩ := hplans.starts
  exact ⟨desc, hthrough.described, hthrough.interval, hthrough.positive⟩

section Nights
variable (sdk : Sdk Calendar) (tzdb : String → Option Tz) (nights : Nat → Night Calendar)

/-- An attempt at an update of some night. -/
abbrev NightlyAttempt :=
  (n : Nat) × (Fin ((nights n).assignments tzdb).length × Fin maximumAttempts)

/-- The attempts of all nights on one cluster, where those of one night may land in another. -/
def nightlyUpdates : UpdateEnv (NightlyAttempt tzdb nights) Calendar where
  sdk := sdk
  tzdb := tzdb
  input k := updateInput (nights k.1).input.timezone (((nights k.1).assignments tzdb).get k.2.1)

/-- What a night is told of a schedule was so at some time before its own updates began. -/
def ReadsBefore (specs : ScheduleRef → Option (ScheduleSpec Calendar))
    (es : List (UpdateEvent (NightlyAttempt tzdb nights) Calendar)) (ref : ScheduleRef) : Prop :=
  ∀ n desc, (nights n).world.discovery.describe ref = .ok desc →
    ∃ before t, before <+: es ∧
      Machine.run (nightlyUpdates sdk tzdb nights).step before (.start specs) = some t ∧
      desc.spec = t.specs ref ∧ ∀ k answer, UpdateEvent.attempt k answer ∈ before → k.1 ≠ n

variable {sdk tzdb nights} {specs : ScheduleRef → Option (ScheduleSpec Calendar)}
  {es : List (UpdateEvent (NightlyAttempt tzdb nights) Calendar)}
  {s : UpdateState (NightlyAttempt tzdb nights) Calendar}

/-- A schedule's first interval is as long as before all nights. -/
def KeepsInterval (specs : ScheduleRef → Option (ScheduleSpec Calendar)) (ref : ScheduleRef)
    (t : UpdateState (NightlyAttempt tzdb nights) Calendar) : Prop :=
  firstIntervalSecs (t.specs ref) = firstIntervalSecs (specs ref)

/-- If it was so until the updates of a night began, the night plans with the first interval. -/
theorem interval_of_reads (hreads : ReadsBefore sdk tzdb nights specs es ref)
    (ha : a ∈ (nights n).assignments tzdb) (href : a.scheduleRef = ref)
    (hthrough : ∀ before t, before <+: es →
      Machine.run (nightlyUpdates sdk tzdb nights).step before (.start specs) = some t →
      (∀ k answer, UpdateEvent.attempt k answer ∈ before → k.1 ≠ n) →
      KeepsInterval specs ref t) :
    firstIntervalSecs (specs ref) = some a.intervalSecs ∧ 0 < a.intervalSecs := by
  obtain ⟨desc, hdesc, hsecs, hpos⟩ := Night.exists_described ha
  rw [href] at hdesc
  obtain ⟨before, t, hpre, hrun, hspec, hnone⟩ := hreads n desc hdesc
  rw [hspec, hthrough before t hpre hrun hnone] at hsecs
  exact ⟨hsecs, hpos⟩

/-- One more event of any night keeps it so. -/
theorem keepsInterval_concat (hpre : es' ++ [e] <+: es)
    (howner : ∀ spec, UpdateEvent.owner ref spec ∉ es)
    (hreads : ReadsBefore sdk tzdb nights specs es ref)
    (hthrough : Throughout (nightlyUpdates sdk tzdb nights).step (KeepsInterval specs ref) es'
      (.start specs))
    (h : Machine.run (nightlyUpdates sdk tzdb nights).step (es' ++ [e]) (.start specs) = some s) :
    KeepsInterval specs ref s := by
  have hspared : ∀ spec, UpdateEvent.owner ref spec ∉ es' ++ [e] :=
    fun spec hmem => howner spec (hpre.subset hmem)
  by_cases hnil : (es' ++ [e]).flatMap ((nightlyUpdates sdk tzdb nights).landedOn ref) = []
  · rw [KeepsInterval, UpdateEnv.specs_of_nil h hspared hnil]
  · obtain ⟨k, hk⟩ := Option.isSome_iff_exists.1 (List.getLast?_isSome.2 hnil)
    obtain ⟨href, spec, hspec, hstored⟩ := UpdateEnv.rewrite_of_getLast? h hspared hk
    obtain ⟨ts, -, hwrite⟩ := except_bind_eq_ok_iff.1 hspec
    have hlanded := UpdateEnv.carriedOut_of_mem_landedOn (List.mem_of_getLast? hk)
    -- what was read before the night of `k` is a state from before its request landed
    have hbefore (before : List _) (t : UpdateState _ _) (hb : before <+: es)
        (hrun : Machine.run (nightlyUpdates sdk tzdb nights).step before (.start specs) = some t)
        (hnone : ∀ j answer, UpdateEvent.attempt j answer ∈ before → j.1 ≠ k.1) :
        KeepsInterval specs ref t := by
      rcases List.prefix_or_prefix_of_prefix hb hpre with hb' | hb'
      · rcases List.prefix_concat_iff.1 hb' with rfl | hb'
        · exact absurd rfl (hnone k _ hlanded)
        · exact hthrough before t hb' hrun
      · exact absurd rfl (hnone k _ (hb'.subset hlanded))
    obtain ⟨hsecs, hpos⟩ := interval_of_reads hreads (List.get_mem _ k.2.1) href hbefore
    rw [KeepsInterval, hstored, hsecs]
    exact firstIntervalSecs_rephase hsecs hpos hwrite

theorem keepsInterval_throughout
    (h : Machine.run (nightlyUpdates sdk tzdb nights).step es (.start specs) = some s)
    (howner : ∀ spec, UpdateEvent.owner ref spec ∉ es)
    (hreads : ReadsBefore sdk tzdb nights specs es ref) :
    Throughout (nightlyUpdates sdk tzdb nights).step (KeepsInterval specs ref) es
      (.start specs) := by
  have hall : es <+: es → Throughout (nightlyUpdates sdk tzdb nights).step
      (KeepsInterval specs ref) es (.start specs) := by
    apply Machine.run_induction (P := fun es' _ => es' <+: es → Throughout
      (nightlyUpdates sdk tzdb nights).step (KeepsInterval specs ref) es' (.start specs)) h
    · intro _ es' t hnil hrun
      cases List.prefix_nil.1 hnil
      cases hrun
      rfl
    · intro es' e t u _ ih _ hpre
      have hthrough := ih ((List.prefix_append es' [e]).trans hpre)
      exact hthrough.concat fun v hv => keepsInterval_concat hpre howner hreads hthrough hv
  exact hall (List.prefix_refl es)

theorem nights_interval
    (h : Machine.run (nightlyUpdates sdk tzdb nights).step es (.start specs) = some s)
    (howner : ∀ spec, UpdateEvent.owner ref spec ∉ es)
    (hreads : ReadsBefore sdk tzdb nights specs es ref) (n : Nat) (a : ScheduleAssignment)
    (ha : a ∈ (nights n).assignments tzdb) (href : a.scheduleRef = ref) :
    firstIntervalSecs (specs ref) = some a.intervalSecs ∧ 0 < a.intervalSecs :=
  interval_of_reads hreads ha href fun before t hpre hrun _ =>
    keepsInterval_throughout h howner hreads before t hpre hrun

theorem nights_changed
    (h : Machine.run (nightlyUpdates sdk tzdb nights).step es (.start specs) = some s)
    (howner : ∀ spec, UpdateEvent.owner ref spec ∉ es)
    (hreads : ReadsBefore sdk tzdb nights specs es ref) :
    s.specs ref = specs ref ∨
      ∃ n, ∃ a ∈ (nights n).assignments tzdb, a.scheduleRef = ref ∧
        ∃ old spec, specs ref = some old ∧ s.specs ref = some spec ∧
          UpdatedTo sdk tzdb (nights n).input.timezone a (some old) spec ∧
          spec.everySecs = old.everySecs := by
  by_cases hnil : es.flatMap ((nightlyUpdates sdk tzdb nights).landedOn ref) = []
  · exact .inl (UpdateEnv.specs_of_nil h howner hnil)
  · obtain ⟨k, hk⟩ := Option.isSome_iff_exists.1 (List.getLast?_isSome.2 hnil)
    obtain ⟨href, spec, hspec, hstored⟩ := UpdateEnv.rewrite_of_getLast? h howner hk
    obtain ⟨ts, hts, hwrite⟩ := except_bind_eq_ok_iff.1 hspec
    obtain ⟨hsecs, hpos⟩ := nights_interval h howner hreads k.1 _ (List.get_mem _ k.2.1) href
    obtain ⟨old, -, -, -, hold, -, -⟩ := exists_of_firstIntervalSecs hsecs hpos
    rw [hold] at hwrite
    exact .inr ⟨k.1, _, List.get_mem _ k.2.1, href, old, spec, hold, hstored, ⟨ts, hts, hwrite⟩,
      everySecs_rephase hwrite⟩

theorem nights_untouched
    (h : Machine.run (nightlyUpdates sdk tzdb nights).step es (.start specs) = some s)
    (howner : ∀ spec, UpdateEvent.owner ref spec ∉ es)
    (hreads : ReadsBefore sdk tzdb nights specs es ref)
    (hnone : ∀ secs, firstIntervalSecs (specs ref) = some secs → secs = 0) :
    s.specs ref = specs ref ∧ ∀ n, ∀ a ∈ (nights n).assignments tzdb, a.scheduleRef ≠ ref := by
  have hnever : ∀ n, ∀ a ∈ (nights n).assignments tzdb, a.scheduleRef ≠ ref := by
    intro n a ha href
    obtain ⟨hsecs, hpos⟩ := nights_interval h howner hreads n a ha href
    exact absurd (hnone _ hsecs) (Nat.ne_of_gt hpos)
  refine ⟨?_, hnever⟩
  rcases nights_changed h howner hreads with hsame | ⟨n, a, ha, href, -⟩
  · exact hsame
  · exact absurd href (hnever n a ha)

/-- However many nights have gone by, and whenever their requests landed: a schedule that its owners
leave alone is as at first, or as the update of one night alone makes it, with intervals as long as
at first; every night plans it with the length of its own first interval; and one that has no such
interval is never touched. -/
theorem nights_keep_interval (sdk : Sdk Calendar) (tzdb : String → Option Tz)
    (nights : Nat → Night Calendar) (specs : ScheduleRef → Option (ScheduleSpec Calendar))
    (es : List (UpdateEvent (NightlyAttempt tzdb nights) Calendar))
    (s : UpdateState (NightlyAttempt tzdb nights) Calendar) (ref : ScheduleRef)
    (h : Machine.run (nightlyUpdates sdk tzdb nights).step es (.start specs) = some s)
    (howner : ∀ spec, UpdateEvent.owner ref spec ∉ es)
    (hreads : ReadsBefore sdk tzdb nights specs es ref) :
    (∀ n, ∀ a ∈ (nights n).assignments tzdb, a.scheduleRef = ref →
      firstIntervalSecs (specs ref) = some a.intervalSecs ∧ 0 < a.intervalSecs) ∧
    (s.specs ref = specs ref ∨
      ∃ n, ∃ a ∈ (nights n).assignments tzdb, a.scheduleRef = ref ∧
        ∃ old spec, specs ref = some old ∧ s.specs ref = some spec ∧
          UpdatedTo sdk tzdb (nights n).input.timezone a (some old) spec ∧
          spec.everySecs = old.everySecs) ∧
    ((∀ secs, firstIntervalSecs (specs ref) = some secs → secs = 0) →
      s.specs ref = specs ref ∧
      ∀ n, ∀ a ∈ (nights n).assignments tzdb, a.scheduleRef ≠ ref) := by
  exact ⟨nights_interval h howner hreads, nights_changed h howner hreads,
    nights_untouched h howner hreads⟩

end Nights

section Sample
variable [DecidableEq κ] {env : UpdateEnv κ Calendar} {s : UpdateState κ Calendar}

/-- The second attempt reads what the first one wrote, and lands before the first is answered. -/
def overlapped (k k' : κ) : List (UpdateEvent κ Calendar) :=
  landed k ++ (landed k' ++ [.attempt k (.answered (.ok ())), .attempt k' (.answered (.ok ()))])

theorem UpdateEnv.landed_of_rewrite (hphase : s.phase k = .called)
    (hspec : env.rewrite k (s.specs (env.target k)) = .ok spec) :
    ∃ t, Machine.run env.step (landed k) s = some t ∧
      t.specs = Function.update s.specs (env.target k) (some spec) ∧
      t.phase = Function.update s.phase k .awaiting ∧
      t.carriedOut = Function.update s.carriedOut k true := by
  have hbegin := UpdateEnv.begin_of_rewrite hspec
  refine ⟨_, UpdateEnv.run_landed hphase hbegin, ?_⟩
  rw [hbegin]
  exact ⟨rfl, rfl, rfl⟩

theorem UpdateEnv.run_overlapped (hne : k' ≠ k) (hphase : s.phase k = .called)
    (hphase' : s.phase k' = .called) (htarget : env.target k = ref)
    (htarget' : env.target k' = ref) (hspec : env.rewrite k (s.specs ref) = .ok spec)
    (hspec' : env.rewrite k' (some spec) = .ok spec') :
    ∃ t u, Machine.run env.step (landed k) s = some t ∧ t.specs ref = some spec ∧
      Machine.run env.step (overlapped k k') s = some u ∧ u.specs ref = some spec' := by
  subst htarget
  obtain ⟨t, hrun, hspecs, hphases, hcarried⟩ := UpdateEnv.landed_of_rewrite hphase hspec
  have ht : t.specs (env.target k) = some spec := hspecs ▸ Function.update_self ..
  have hcalled : t.phase k' = .called := by rw [hphases, Function.update_of_ne hne, hphase']
  obtain ⟨u, hrun', hspecs', hphases', hcarried'⟩ :=
    UpdateEnv.landed_of_rewrite hcalled (htarget'.symm ▸ ht.symm ▸ hspec')
  have hconfirm : env.step (.attempt k (.answered (.ok ()))) u =
      some (u.stand k (.ended (.ok .updated))) := by
    apply UpdateEnv.step_confirmed
    · rw [hphases', hphases, Function.update_of_ne hne.symm, Function.update_self]
    · rw [hcarried', hcarried, Function.update_of_ne hne.symm, Function.update_self]
  have hconfirm' : env.step (.attempt k' (.answered (.ok ()))) (u.stand k (.ended (.ok .updated))) =
      some ((u.stand k (.ended (.ok .updated))).stand k' (.ended (.ok .updated))) := by
    apply UpdateEnv.step_confirmed
    · exact (Function.update_of_ne hne ..).trans (by rw [hphases', Function.update_self])
    · exact hcarried' ▸ Function.update_self ..
  refine ⟨t, (u.stand k (.ended (.ok .updated))).stand k' (.ended (.ok .updated)), hrun, ht,
    (Machine.run_append_iff env.step).2 ⟨t, hrun, ?_⟩, ?_⟩
  · refine (Machine.run_append_iff env.step).2 ⟨u, hrun', ?_⟩
    refine (Machine.run_cons_iff env.step).2 ⟨_, hconfirm, ?_⟩
    exact (Machine.run_cons_iff env.step).2 ⟨_, hconfirm', rfl⟩
  · change u.specs (env.target k) = some spec'
    rw [hspecs', htarget', Function.update_self]

/-- Every day, at so many seconds after midnight. -/
def everyDay (phase : Option Nat) : ScheduleSpec String :=
  ⟨[⟨some (ofSecs 86400), phase.map ofSecs⟩], [], [], none, none, none, ""⟩

/-- A day later: the first backup is as the night before has left it, and two o'clock is cheapest. -/
def laterSlots : World String :=
  { longSlots with
    workflowTime := some (86400 * 10 ^ 9)
    discovery := { longSlots.discovery with
      describe r := if r = ⟨"east", "backup"⟩ then .ok ⟨[], [], some (everyDay (some 1800))⟩
        else longSlots.discovery.describe r }
    fetchPricedWindows _ := .ok [⟨1, 2, 0, 5⟩] }

/-- The first night, and the same later night again and again. -/
def longSlotsNights (n : Nat) : Night String :=
  ⟨match n with
    | 0 => longSlots
    | _ + 1 => laterSlots, .asCalled, eager, ⟨"q", "UTC"⟩, firstAcknowledged⟩

theorem laterSlots_dispatched (n : Nat) :
    (longSlotsNights (n + 1)).assignments utcOnly =
      longSlotsPlan.map fun a => { a with window := ⟨1, 2, 0⟩ } := by
  have hlater : (longSlotsNights (n + 1)).assignments utcOnly =
      (longSlotsNights 1).assignments utcOnly := rfl
  rw [hlater]
  decide +kernel

/-- The attempt at the first update of a night. -/
def firstUpdate (nights : Nat → Night Calendar) (n : Nat)
    (h : 0 < ((nights n).assignments tzdb).length) : NightlyAttempt tzdb nights :=
  ⟨n, ⟨0, h⟩, ⟨0, Nat.succ_pos _⟩⟩

theorem input_firstUpdate {nights : Nat → Night Calendar} {a : ScheduleAssignment}
    (hplan : (nights n).assignments tzdb = a :: rest)
    (h : 0 < ((nights n).assignments tzdb).length) :
    (nightlyUpdates sdk tzdb nights).input (firstUpdate nights n h) =
      updateInput (nights n).input.timezone a := by
  have hget : ((nights n).assignments tzdb)[0] = a := by
    simp only [hplan, List.getElem_cons_zero]
  exact congrArg (updateInput _) hget

/-- The update of a later night reads what the first night's has written, and lands while that still
awaits its answer. -/
theorem nights_keep_interval_longSlots :
    ∃ (es : List (UpdateEvent (NightlyAttempt utcOnly longSlotsNights) String)) (s : _),
      Machine.run (nightlyUpdates (.plain String) utcOnly longSlotsNights).step es
        (.start fun _ => some (everyDay none)) = some s ∧
      (es.flatMap ((nightlyUpdates (.plain String) utcOnly longSlotsNights).landedOn
        ⟨"east", "backup"⟩)).map Sigma.fst = [0, 1] ∧
      ReadsBefore (.plain String) utcOnly longSlotsNights (fun _ => some (everyDay none)) es
        ⟨"east", "backup"⟩ ∧
      s.specs ⟨"east", "backup"⟩ = some (everyDay (some 7200)) ∧
      (∃ a ∈ (longSlotsNights 3).assignments utcOnly, a.scheduleRef = ⟨"east", "backup"⟩ ∧
        firstIntervalSecs (some (everyDay none)) = some a.intervalSecs ∧ 0 < a.intervalSecs) ∧
      ∃ n, ∃ a ∈ (longSlotsNights n).assignments utcOnly, a.scheduleRef = ⟨"east", "backup"⟩ ∧
        ∃ spec, s.specs ⟨"east", "backup"⟩ = some spec ∧
          UpdatedTo (.plain String) utcOnly "UTC" a (some (everyDay none)) spec ∧
          spec.everySecs = [86400] := by
  let env := nightlyUpdates (.plain String) utcOnly longSlotsNights
  let ref : ScheduleRef := ⟨"east", "backup"⟩
  have hplan : (longSlotsNights 0).assignments utcOnly = longSlotsPlan := longSlots_dispatched
  have hplan' (n : Nat) := laterSlots_dispatched n
  have hpos : 0 < ((longSlotsNights 0).assignments utcOnly).length := hplan ▸ Nat.succ_pos _
  have hpos' : 0 < ((longSlotsNights 1).assignments utcOnly).length := hplan' 0 ▸ Nat.succ_pos _
  let k := firstUpdate longSlotsNights 0 hpos
  let k' := firstUpdate longSlotsNights 1 hpos'
  have hinput : env.input k = _ := input_firstUpdate hplan hpos
  have hinput' : env.input k' = _ := input_firstUpdate (hplan' 0) hpos'
  have htarget : env.target k = ref := by
    rw [UpdateEnv.target, hinput]
    rfl
  have htarget' : env.target k' = ref := by
    rw [UpdateEnv.target, hinput']
    rfl
  have hspec : env.rewrite k (some (everyDay none)) = .ok (everyDay (some 1800)) := by
    rw [UpdateEnv.rewrite, hinput]
    rfl
  have hspec' : env.rewrite k' (some (everyDay (some 1800))) = .ok (everyDay (some 7200)) := by
    rw [UpdateEnv.rewrite, hinput']
    rfl
  have hne : k' ≠ k := fun h => absurd (congrArg Sigma.fst h) (Nat.succ_ne_zero 0)
  obtain ⟨t, s, hfirst, ht, hrun, hs⟩ := UpdateEnv.run_overlapped
    (s := .start fun _ => some (everyDay none)) hne rfl rfl htarget htarget' hspec hspec'
  have hlanded : (overlapped k k').flatMap (env.landedOn ref) = [k, k'] := by
    simp only [overlapped, landed, List.flatMap_cons, List.flatMap_nil, UpdateEnv.landedOn, htarget,
      htarget', if_true, List.nil_append, List.append_nil, List.cons_append]
  have hdescribe : laterSlots.discovery.describe ref =
      .ok ⟨[], [], some (everyDay (some 1800))⟩ := by
    simp only [laterSlots, ref, if_true]
  have hreads : ReadsBefore (.plain String) utcOnly longSlotsNights (fun _ => some (everyDay none))
      (overlapped k k') ref := by
    intro n desc hdesc
    cases n with
    | zero =>
      cases hdesc
      exact ⟨[], _, List.nil_prefix, rfl, rfl, fun j answer hmem => absurd hmem List.not_mem_nil⟩
    | succ n =>
      cases hdescribe.symm.trans hdesc
      refine ⟨landed k, t, List.prefix_append .., hfirst, ht.symm, ?_⟩
      intro j answer hmem
      rcases List.mem_pair.1 hmem with h | h
      · cases h
        exact (Nat.succ_ne_zero n).symm
      · cases h
        exact (Nat.succ_ne_zero n).symm
  have howner (spec : Option (ScheduleSpec String)) :
      UpdateEvent.owner ref spec ∉ overlapped k k' := by
    simp [overlapped, landed]
  have hmem : ⟨ref, ⟨1, 2, 0⟩, 86400⟩ ∈ (longSlotsNights 3).assignments utcOnly := by
    rw [hplan' 2]
    exact List.mem_cons_self ..
  obtain ⟨hinterval, hchanged, -⟩ := nights_keep_interval (.plain String) utcOnly longSlotsNights
    (fun _ => some (everyDay none)) (overlapped k k') s ref hrun howner hreads
  refine ⟨overlapped k k', s, hrun, ?_, hreads, hs, ⟨_, hmem, rfl, hinterval 3 _ hmem rfl⟩, ?_⟩
  · rw [hlanded]
    rfl
  · rcases hchanged with hsame | ⟨n, a, ha, href, old, spec, hold, hstored, hupdated, hevery⟩
    · rw [hs] at hsame
      cases hsame
    · cases hold
      exact ⟨n, a, ha, href, spec, hstored, hupdated, hevery⟩

end Sample

end Gridshift
