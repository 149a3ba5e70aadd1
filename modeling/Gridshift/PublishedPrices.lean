import Gridshift.ClusterRun
import Gridshift.FetchProvenance

namespace Gridshift
open Sorting
set_option autoImplicit true

def ProviderError.display (formatDate : NaiveDate → String) : ProviderError → String
  | .notYetPublished date => s!"prices not yet published for {formatDate date}"
  | .other message => message

structure PriceProvider where
  fetchPricedWindows : NaiveDate → String → Except ProviderError (List PricedWindow)

/-- The activity that fetches a day's prices. -/
def GridshiftActivities.fetchPricedWindows (formatDate : NaiveDate → String)
    (provider : PriceProvider) (input : FetchWindowsInput) : Except String (List PricedWindow) :=
  (provider.fetchPricedWindows input.date input.timezone).mapError (·.display formatDate)

/-- The activity for which prices that are not yet published are no error. -/
def GridshiftActivities.tryFetchPricedWindows (formatDate : NaiveDate → String)
    (provider : PriceProvider) (input : FetchWindowsInput) :
    Except String TryFetchWindowsResult :=
  match provider.fetchPricedWindows input.date input.timezone with
  | .ok windows =>
    .ok ⟨some windows, s!"Fetched {windows.length} slots for {formatDate input.date}"⟩
  | .error (.notYetPublished _) =>
    .ok ⟨none, s!"Prices not yet published for {formatDate input.date}"⟩
  | .error e => .error (e.display formatDate)

/-- A call has returned this result. -/
def FetchState.Returns (s : FetchState ι) (env : FetchEnv ι) (input : FetchWindowsInput)
    (result : Except ProviderError (List PricedWindow)) : Prop :=
  ∃ i, env.input i = input ∧ s.phase i = .returned result

/-- What fetching gives to the run is what the activities make of a call's result. -/
structure World.FetchedBy (world : World Calendar) (formatDate : NaiveDate → String)
    (env : FetchEnv ι) (s : FetchState ι) : Prop where
  fetched : ∀ input windows, world.fetchPricedWindows input = .ok windows →
    ∃ result, s.Returns env input result ∧
      GridshiftActivities.fetchPricedWindows formatDate ⟨fun _ _ => result⟩ input = .ok windows
  tried : ∀ input r, world.tryFetchPricedWindows input = .ok r →
    ∃ result, s.Returns env input result ∧
      GridshiftActivities.tryFetchPricedWindows formatDate ⟨fun _ _ => result⟩ input = .ok r

/-- The rates of an answer to a request for a date, for the product of a framed tariff. -/
def FetchEnv.Published [DecidableEq ι] (env : FetchEnv ι) (es : List (ι × Answer))
    (input : FetchWindowsInput) (tz : Tz) (rates : List OctopusRate) : Prop :=
  (∀ r ∈ rates, r.valueIncVat.isFinite = true) ∧
  ∃ i auth product next, env.input i = input ∧ Framed auth.tariffCode product ∧
    env.succOpt input.date = some next ∧
    Answered env es i tz auth {
      url := ratesUrl product auth.tariffCode
      periodFrom := env.formatBoundary (midnight tz input.date)
      periodTo := env.formatBoundary (midnight tz next) } rates

theorem GridshiftActivities.ok_of_fetchPricedWindows {input : FetchWindowsInput}
    (h : GridshiftActivities.fetchPricedWindows formatDate ⟨fun _ _ => result⟩ input =
      .ok windows) : result = .ok windows := by
  cases result with
  | error e => cases h
  | ok windows' =>
    cases h
    rfl

/-- Only prices that are not yet published come as no windows. -/
theorem GridshiftActivities.tryFetchPricedWindows_windows {input : FetchWindowsInput}
    (h : GridshiftActivities.tryFetchPricedWindows formatDate ⟨fun _ _ => result⟩ input = .ok r) :
    (∃ windows, result = .ok windows ∧ r.windows = some windows) ∨
    (∃ date, result = .error (.notYetPublished date)) ∧ r.windows = none := by
  cases result with
  | ok windows =>
    cases h
    exact .inl ⟨windows, rfl, rfl⟩
  | error e =>
    cases e with
    | notYetPublished date =>
      cases h
      exact .inr ⟨⟨date, rfl⟩, rfl⟩
    | other message => cases h

section Calls
variable {ι : Type} [DecidableEq ι] {env : FetchEnv ι} {calls : List (ι × Answer)}
  {s : FetchState ι} (h : Machine.run (step env) calls .initial = some s)
include h

theorem published_of_returns (htz : env.tzdb input.timezone = some tz)
    (hreturns : s.Returns env input result) :
    (∃ message, result = .error (.other message)) ∨
    ∃ rates, env.Published calls input tz rates ∧
      (rates = [] ∧ result = .error (.notYetPublished input.date) ∨
        rates ≠ [] ∧ result = .ok ((sortRates rates).map (rateWindow tz))) := by
  obtain ⟨i, rfl, hphase⟩ := hreturns
  rcases fetched_or_failed h hphase with hother | hkept
  · exact .inl hother
  · obtain ⟨tz', auth, product, next, rates, htz', hframed, hnext, hans, hkept⟩ := hkept
    cases htz.symm.trans htz'
    right
    rcases hkept with ⟨rfl, hresult⟩ | ⟨hne, hfin, hresult⟩
    · exact ⟨[], ⟨List.forall_mem_nil _, i, auth, product, next, rfl, hframed, hnext, hans⟩,
        .inl ⟨rfl, hresult⟩⟩
    · exact ⟨rates, ⟨hfin, i, auth, product, next, rfl, hframed, hnext, hans⟩,
        .inr ⟨hne, hresult⟩⟩

theorem published_of_fetched {world : World Calendar}
    (hfetched : world.FetchedBy formatDate env s) (htz : env.tzdb input.timezone = some tz)
    (hwindows : world.fetchPricedWindows input = .ok windows) :
    ∃ rates, env.Published calls input tz rates ∧ rates ≠ [] ∧
      windows = (sortRates rates).map (rateWindow tz) := by
  obtain ⟨result, hreturns, hactivity⟩ := hfetched.fetched input windows hwindows
  cases GridshiftActivities.ok_of_fetchPricedWindows hactivity
  rcases published_of_returns h htz hreturns with ⟨message, hother⟩ | ⟨rates, hpub, hkept⟩
  · cases hother
  · rcases hkept with ⟨-, hnone⟩ | ⟨hne, hok⟩
    · cases hnone
    · exact ⟨rates, hpub, hne, Except.ok.inj hok⟩

/-- No windows are those of a day for which the API had no rates. -/
theorem published_of_tried {world : World Calendar} (hfetched : world.FetchedBy formatDate env s)
    (htz : env.tzdb input.timezone = some tz)
    (hr : world.tryFetchPricedWindows input = .ok r) :
    ∃ rates, env.Published calls input tz rates ∧ (r.windows = none ↔ rates = []) ∧
      r.windows.getD [] = (sortRates rates).map (rateWindow tz) := by
  obtain ⟨result, hreturns, hactivity⟩ := hfetched.tried input r hr
  have hcases := GridshiftActivities.tryFetchPricedWindows_windows hactivity
  rcases published_of_returns h htz hreturns with ⟨message, rfl⟩ | ⟨rates, hpub, hkept⟩
  · rcases hcases with ⟨windows, hok, -⟩ | ⟨⟨date, hnone⟩, -⟩
    · cases hok
    · cases hnone
  · refine ⟨rates, hpub, ?_⟩
    rcases hkept with ⟨rfl, rfl⟩ | ⟨hne, rfl⟩
    · rcases hcases with ⟨windows, hok, -⟩ | ⟨-, hnone⟩
      · cases hok
      · rw [hnone]
        exact ⟨iff_of_true rfl rfl, rfl⟩
    · rcases hcases with ⟨windows, hok, hsome⟩ | ⟨⟨date, hnone⟩, -⟩
      · cases hok
        rw [hsome]
        exact ⟨iff_of_false (Option.some_ne_none _) hne, rfl⟩
      · cases hnone

theorem exists_rate_of_mem_pool {world : World Calendar}
    (hfetched : world.FetchedBy formatDate env s) (htz : env.tzdb timezone = some tz)
    (hpool : world.pool tz now timezone = .ok priced) (hw : w ∈ priced) :
    ∃ date rates r, (date = today tz now ∨ date = today tz now + 1) ∧
      env.Published calls ⟨date, timezone⟩ tz rates ∧ r ∈ rates ∧ w = rateWindow tz r := by
  obtain ⟨windows, hwindows, hpool⟩ := except_bind_eq_ok_iff.1 hpool
  obtain ⟨tomorrow, htomorrow, hpool⟩ := except_bind_eq_ok_iff.1 hpool
  cases hpool
  rcases List.mem_append.1 hw with hw | hw
  · obtain ⟨rates, hpub, -, rfl⟩ := published_of_fetched h hfetched htz hwindows
    obtain ⟨r, hr, rfl⟩ := List.mem_map.1 (List.mem_filter.1 hw).1
    exact ⟨_, rates, r, .inl rfl, hpub, (sortRates_perm rates).mem_iff.1 hr, rfl⟩
  · obtain ⟨rates, hpub, -, hrest⟩ := published_of_tried h hfetched htz htomorrow
    rw [hrest] at hw
    obtain ⟨r, hr, rfl⟩ := List.mem_map.1 hw
    exact ⟨_, rates, r, .inr rfl, hpub, (sortRates_perm rates).mem_iff.1 hr, rfl⟩

end Calls

/-- In whatever order the calls of the provider are answered, the pool of a run is what the API
published: the rates of the day that are still ahead, and all those of the next, of which there are
none only if the API had none. -/
theorem pool_published [DecidableEq ι] (world : World Calendar) (formatDate : NaiveDate → String)
    (env : FetchEnv ι) (calls : List (ι × Answer)) (s : FetchState ι) (tz : Tz) (now : Int)
    (timezone : String) (priced : List PricedWindow)
    (h : Machine.run (step env) calls .initial = some s)
    (hfetched : world.FetchedBy formatDate env s) (htz : env.tzdb timezone = some tz)
    (hpool : world.pool tz now timezone = .ok priced) :
    ∃ todays tomorrows, env.Published calls ⟨today tz now, timezone⟩ tz todays ∧ todays ≠ [] ∧
      env.Published calls ⟨today tz now + 1, timezone⟩ tz tomorrows ∧
      priced = ((sortRates todays).map (rateWindow tz)).filter (stillAhead tz now) ++
        (sortRates tomorrows).map (rateWindow tz) := by
  obtain ⟨windows, hwindows, hpool⟩ := except_bind_eq_ok_iff.1 hpool
  obtain ⟨r, hr, hpool⟩ := except_bind_eq_ok_iff.1 hpool
  cases hpool
  obtain ⟨todays, htodays, hne, rfl⟩ := published_of_fetched h hfetched htz hwindows
  obtain ⟨tomorrows, htomorrows, -, hrest⟩ := published_of_tried h hfetched htz hr
  exact ⟨todays, tomorrows, htodays, hne, htomorrows, by rw [pricePool, hrest]⟩

/-- What a run reports of an update, from the answer of the price API on: its first window is that
of a rate which the API published for the day of the run or the next, and when that rate's start
is one that its wall-clock reading determines, the schedule fires then in the end. -/
theorem reported_fires_at_published_rate [DecidableEq ι] (world : World Calendar) (o : Orders)
    (lib : Libraries) (sdk : Sdk Calendar) (input : SchedulerInput)
    (updates : Nat → UpdateWindowsInput → Except String UpdateOutcome)
    (formatDate : NaiveDate → String) (env : FetchEnv ι) (calls : List (ι × Answer))
    (t : FetchState ι) (specs : ScheduleRef → Option (ScheduleSpec Calendar))
    (es : List (UpdateEvent (Fin (dispatched lib env.tzdb (world.activitiesWith o updates)
      input).length × Fin maximumAttempts) Calendar))
    (s : UpdateState (Fin (dispatched lib env.tzdb (world.activitiesWith o updates)
      input).length × Fin maximumAttempts) Calendar)
    (result : SchedulerResult) (u : ScheduleUpdateSummary)
    (hcalls : Machine.run (step env) calls .initial = some t)
    (hfetched : world.FetchedBy formatDate env t)
    (h : Machine.run (runUpdates sdk env.tzdb input.timezone (dispatched lib env.tzdb
      (world.activitiesWith o updates) input)).step es (.start specs) = some s)
    (hdelivered : Delivered input.timezone (dispatched lib env.tzdb
      (world.activitiesWith o updates) input) updates s)
    (hlist : world.listManagedNamespaces = .ok namespaces) (hns : namespaces.Nodup)
    (hids : ∀ ns ∈ namespaces, world.DistinctIds input.query ns)
    (hrun : run lib env.tzdb (world.activitiesWith o updates) input = .ok result)
    (hu : u ∈ result.updates) (howner : ∀ spec, UpdateEvent.owner u.ref spec ∉ es) :
    ∃ now tz date rates r, world.workflowTime = some now ∧
      env.tzdb input.timezone = some tz ∧ (date = today tz now ∨ date = today tz now + 1) ∧
      env.Published calls ⟨date, input.timezone⟩ tz rates ∧ r ∈ rates ∧
      u.windows.head? = some (rateWindow tz r).toChosen ∧
      (r.validFrom % 60 = 0 → RoundTrips tz r.validFrom →
        ∃ spec, s.specs u.ref = some spec ∧
          ∀ old every, specs u.ref = some old → every ∈ old.everySecs → 0 < every →
            spec.FiresAt r.validFrom) := by
  obtain ⟨a, ha, tz, ndt, spec, htz, hfirst, hndt, -, hstored, hfires⟩ :=
    exists_stored_of_reported h hdelivered hlist hns hids hrun hu howner
  obtain ⟨now, tz', _, priced, info, hplans⟩ := World.exists_plans ha
  cases htz.symm.trans hplans.zone
  obtain ⟨_, slot, -, -, -, rfl⟩ := hplans.starts
  obtain ⟨date, rates, r, hdate, hpub, hr, hwindow⟩ :=
    exists_rate_of_mem_pool hcalls hfetched htz hplans.pool (List.get_mem priced slot)
  rw [hwindow] at hfirst hndt
  refine ⟨now, tz, date, rates, r, hplans.clock, htz, hdate, hpub, hr, hfirst, ?_⟩
  intro hminute hround
  have hts : (utcTs tz ndt : Int) = r.validFrom := by
    rw [← windowTs_of_andHmsOpt hndt]
    exact ((roundTrips_iff tz hminute).2 hround).2
  refine ⟨spec, hstored, ?_⟩
  intro old every hold hevery hpos
  rw [← hts]
  exact hfires old every hold hevery hpos

section Sample

/-- Even calls are for 1 January 1970, and odd ones for the day after. -/
def epochCalls : FetchEnv Nat where
  input i := ⟨(i % 2 : Nat), "UTC"⟩
  tzdb := utcOnly
  succOpt d := some (d + 1)
  formatBoundary _ := ""
  formatTime _ := ""
  formatRat _ := ""

/-- Both days are fetched with one token, and only the first has a rate. -/
def firstDay : List (Nat × Answer) :=
  login 0 "jwt" ++ [(1, .called), (1, .lock (.ok "sk")), (1, .rates (.ok [])),
    (0, .rates (.ok [⟨.finite 7, 1800⟩]))]

def fetchedSlots : World String :=
  { longSlots with
    fetchPricedWindows input :=
      if input.date = 0 ∧ input.timezone = "UTC" then .ok [⟨0, 0, 30, 7⟩] else .error "not called"
    tryFetchPricedWindows input :=
      if input.date = 1 ∧ input.timezone = "UTC" then
        .ok ⟨none, "Prices not yet published for 1970-01-02"⟩
      else .error "not called" }

theorem fetchedSlots_fetchedBy :
    ∃ s, Machine.run (step epochCalls) firstDay .initial = some s ∧
      fetchedSlots.FetchedBy (fun _ => "1970-01-02") epochCalls s := by
  refine ⟨_, rfl, ?_, ?_⟩
  · intro input windows hwindows
    simp only [fetchedSlots] at hwindows
    split at hwindows
    · rename_i hinput
      cases hwindows
      cases input
      obtain ⟨rfl, rfl⟩ := hinput
      exact ⟨_, ⟨0, rfl, rfl⟩, rfl⟩
    · cases hwindows
  · intro input r hr
    simp only [fetchedSlots] at hr
    split at hr
    · rename_i hinput
      cases hr
      cases input
      obtain ⟨rfl, rfl⟩ := hinput
      exact ⟨_, ⟨1, rfl, rfl⟩, rfl⟩
    · cases hr

theorem pool_published_fetchedSlots :
    ∃ todays, epochCalls.Published firstDay ⟨0, "UTC"⟩ (.fixed 0) todays ∧ todays ≠ [] := by
  obtain ⟨s, hrun, hfetched⟩ := fetchedSlots_fetchedBy
  obtain ⟨todays, _, htodays, hne, -⟩ := pool_published fetchedSlots (fun _ => "1970-01-02")
    epochCalls firstDay s (.fixed 0) 0 "UTC" [⟨0, 0, 30, 7⟩] hrun hfetched rfl rfl
  exact ⟨todays, htodays, hne⟩

theorem fetchedSlots_dispatched :
    dispatched eager utcOnly (fetchedSlots.activitiesWith .asCalled firstAcknowledged)
      ⟨"q", "UTC"⟩ = longSlotsPlan := by
  decide +kernel

theorem fetchedSlots_run :
    ∃ skipped, run eager utcOnly (fetchedSlots.activitiesWith .asCalled firstAcknowledged)
      ⟨"q", "UTC"⟩ = .ok ⟨1, [⟨"east", "backup", [⟨0, 0, 30⟩]⟩], skipped⟩ :=
  ⟨longSlotsSkips, by decide +kernel⟩

theorem reported_fires_at_published_rate_fetchedSlots :
    ∃ date rates r, epochCalls.Published firstDay ⟨date, "UTC"⟩ (.fixed 0) rates ∧ r ∈ rates ∧
      (rateWindow (.fixed 0) r).toChosen = ⟨0, 0, 30⟩ := by
  obtain ⟨t, hcalls, hfetched⟩ := fetchedSlots_fetchedBy
  obtain ⟨es, s, hes, hdelivered, howner⟩ := longSlots_attempt fetchedSlots_dispatched
  obtain ⟨skipped, hrun⟩ := fetchedSlots_run
  have hids : ∀ ns ∈ ["east", "west"], fetchedSlots.DistinctIds "q" ns := by
    intro ns _ ids hids
    cases hids
    decide
  obtain ⟨now, tz, date, rates, r, hnow, htz, -, hpub, hr, hwindow, -⟩ :=
    reported_fires_at_published_rate fetchedSlots .asCalled eager (.plain String) ⟨"q", "UTC"⟩
      firstAcknowledged (fun _ => "1970-01-02") epochCalls firstDay t _ es s _
      ⟨"east", "backup", [⟨0, 0, 30⟩]⟩ hcalls hfetched hes hdelivered rfl (by decide) hids hrun
      (List.mem_singleton.2 rfl) (howner _)
  cases htz
  exact ⟨date, rates, r, hpub, hr, (Option.some.inj hwindow).symm⟩

end Sample

end Gridshift
