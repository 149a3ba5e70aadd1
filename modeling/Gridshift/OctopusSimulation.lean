import Gridshift.AuthProgress
import Gridshift.OctopusApi
import Gridshift.Simulation

namespace Gridshift
open Async Machine Simulation
set_option autoImplicit true

section Programs
variable (env : OctopusProvider ι)

/-- What is left of `resolve_auth` at one of its awaits. -/
def OctopusProvider.resolving : Stage → Fetch (String × String)
  | .authenticating apiKey => do env.discoverTariff (← env.authenticate apiKey)
  | .listing token => env.discoverTariff token
  | .searching token number rest => do
    OctopusProvider.keepTariff token (← env.findTariff token (number :: rest))

def OctopusProvider.fetching (i : ι) (tz : Tz) (p : Fetch (String × String)) :
    Fetch (List PricedWindow) := do
  let (_, tariffCode) ← p
  env.fetchRates (env.input i).date tz tariffCode

/-- What is left of a call that was refused its rates. -/
def refused : Fetch (List PricedWindow) := do
  Prog.locked (Prog.ask (.write none))
  other (.error "Octopus API returned 401: token expired, will re-authenticate on retry")

def fetched : Except ProviderError (List PricedWindow) → Fetch (List PricedWindow)
  | .ok windows => .done windows
  | .error e => .fail (.error e)

/-- What is left of a call at an await, or how it ended. -/
def OctopusProvider.call (i : ι) : Phase → Call octopus (List PricedWindow)
  | .idle => .idle
  | .locking tz => .running (env.fetching i tz env.resolveAuth)
  | .resolving tz stage => .running (env.fetching i tz (env.resolving stage).guarded)
  | .requesting tz _ request => .running do
    env.receiveRates (env.input i).date tz (← send request.http)
  | .rejected _ => .running refused
  | .returned result => .running (fetched result)
  | .panicked panic => .running (.fail (.panic panic))
  | .dropped => .dropped

def OctopusProvider.state (s : FetchState ι) : State octopus ι (List PricedWindow) where
  value := s.cache.map fun a => (a.token, a.tariffCode)
  holder := s.lock
  call i := env.call i (s.phase i)

/-- What an event answers to a call, by the await that it stands at. -/
def OctopusProvider.observe : Phase → Event octopus → Option Answer
  | .idle, .called _ => some .called
  | .locking _, .granted view => some (.lock view.apiKey)
  | .resolving _ (.authenticating _), .answered _ answer => some (.token (env.readToken answer))
  | .resolving _ (.listing _), .answered _ answer => some (.accounts (env.readNumbers answer))
  | .resolving _ (.searching ..), .answered view answer =>
    some (.account view.now (env.readAccount answer))
  | .requesting .., .answered _ answer =>
    match answer with
    | .error e => some (.rates (.error e))
    | .ok response =>
      if response.status = 401 then some .unauthorized
      else some (.rates (env.readRates response))
  | .rejected _, .granted _ => some .clear
  | _, .dropped => some .dropped
  | _, _ => none

theorem OctopusProvider.call_request (i : ι) (tz : Tz) (auth : Auth) :
    env.call i (env.request i tz auth) =
      .running (env.fetchRates (env.input i).date tz auth.tariffCode) := by
  rw [FetchEnv.request, OctopusProvider.fetchRates]
  cases productCode auth.tariffCode with
  | none => rfl
  | some product =>
    cases env.succOpt (env.input i).date with
    | none => rfl
    | some next => rfl

theorem OctopusProvider.settle_fetchRates (date : NaiveDate) (tz : Tz) (tariffCode : String)
    (view : Surroundings) (s : Shared octopus κ) :
    settle view (env.fetchRates date tz tariffCode) s = (env.fetchRates date tz tariffCode, s) := by
  rw [OctopusProvider.fetchRates]
  cases productCode tariffCode with
  | none => rfl
  | some product =>
    cases env.succOpt date with
    | none => rfl
    | some next => rfl

theorem OctopusProvider.state_call (h : s.phase i = p) : (env.state s).call i = env.call i p :=
  congrArg (env.call i) h

theorem OctopusProvider.receiveRates_unauthorized (h : response.status = 401) (date : NaiveDate)
    (tz : Tz) : env.receiveRates date tz (.ok response) = refused := by
  change (if response.status = 401 then _ else _) = _
  rw [if_pos h]
  rfl

theorem OctopusProvider.receiveRates_authorized (h : response.status ≠ 401) (date : NaiveDate)
    (tz : Tz) : env.receiveRates date tz (.ok response) = (do
      let results ← other (env.readRates response)
      fetched (pricedWindowsOf env.formatRat env.formatTime date tz results)) := by
  change (if response.status = 401 then _ else _) = _
  rw [if_neg h]
  rfl

theorem settle_fetched (view : Surroundings) (result : Except ProviderError (List PricedWindow))
    (s : Shared octopus κ) : settle view (fetched result) s = (fetched result, s) := by
  cases result with
  | _ => rfl

section Settling
variable (i : ι) (tz : Tz) (view : Surroundings) (holder : Option ι)

theorem OctopusProvider.settle_cached (token tariffCode : String) :
    settle view (env.fetching i tz env.resolveLocked.guarded) ⟨some (token, tariffCode), holder⟩ =
      (env.fetchRates (env.input i).date tz tariffCode, ⟨some (token, tariffCode), none⟩) :=
  env.settle_fetchRates _ tz tariffCode view ⟨some (token, tariffCode), none⟩

theorem OctopusProvider.settle_keyless (hkey : view.apiKey = .error e) :
    settle view (env.fetching i tz env.resolveLocked.guarded) ⟨none, holder⟩ =
      (.fail (.error (.other s!"OCTOPUS_API_KEY not set: {e}")), ⟨none, none⟩) := by
  obtain ⟨apiKey, now⟩ := view
  cases hkey
  rfl

theorem OctopusProvider.settle_key (hkey : view.apiKey = .ok apiKey) :
    settle view (env.fetching i tz env.resolveLocked.guarded) ⟨none, holder⟩ =
      (env.fetching i tz (env.resolving (.authenticating apiKey)).guarded, ⟨none, holder⟩) := by
  obtain ⟨apiKey, now⟩ := view
  cases hkey
  rfl

/-- The tariff that was found, or the error that its code is in another format. -/
theorem OctopusProvider.settle_kept (s : Shared octopus ι) (token tariffCode : String) :
    settle view (env.fetching i tz (OctopusProvider.keepTariff token (some tariffCode)).guarded) s =
      if (segments tariffCode).length < 4 then
        (.fail (.error (.other s!"unexpected tariff code format {debugStr tariffCode} (expected at least 4 dash-separated segments, e.g. E-1R-AGILE-FLEX-22-11-25-C)")),
          { s with holder := none })
      else (env.fetchRates (env.input i).date tz tariffCode, ⟨some (token, tariffCode), none⟩) := by
  rw [OctopusProvider.keepTariff]
  split
  · rfl
  · exact env.settle_fetchRates _ tz tariffCode view ⟨some (token, tariffCode), none⟩

/-- The search goes on with the accounts that are left, unless it is over. -/
theorem OctopusProvider.settle_account (s : Shared octopus ι) (token : String)
    (rest : List String) (account : Account) :
    settle view (env.fetching i tz (do
      let found ← (do
        let account ← other (.ok account)
        match findAgileTariff (← Prog.ask .look : Surroundings).now account with
        | some code => return some code
        | none => env.findTariff token rest : Fetch (Option String))
      OctopusProvider.keepTariff token found : Fetch (String × String)).guarded) s =
    match findAgileTariff view.now account with
    | some tariffCode =>
      settle view (env.fetching i tz (OctopusProvider.keepTariff token (some tariffCode)).guarded) s
    | none =>
      settle view (env.fetching i tz (do
        OctopusProvider.keepTariff token (← env.findTariff token rest)).guarded) s := by
  change settle view (env.fetching i tz (do
      let found ← (match findAgileTariff view.now account with
        | some code => return some code
        | none => env.findTariff token rest : Fetch (Option String))
      OctopusProvider.keepTariff token found : Fetch (String × String)).guarded) s = _
  cases findAgileTariff view.now account with
  | some tariffCode => rfl
  | none => rfl

end Settling

/-- Some response is read as the result. -/
def OctopusProvider.Readable : Answer → Prop
  | .token (.ok token) => ∃ response, env.readToken (.ok response) = .ok token
  | .accounts (.ok numbers) => ∃ response, env.readNumbers (.ok response) = .ok numbers
  | .account _ (.ok account) => ∃ response, env.readAccount (.ok response) = .ok account
  | .rates (.ok results) => ∃ response : HttpResponse, response.status ≠ 401 ∧
      env.readRates response = .ok results
  | _ => True

/-- Whatever a call awaits can come from the lock, its caller or the API, if that has a response for
it. -/
theorem OctopusProvider.exists_observe (hreadable : env.Readable answer)
    (h : p.awaits answer = true) : ∃ e, env.observe p e = some answer := by
  let view : Surroundings := ⟨.error "", 0⟩
  cases p with
  | idle =>
    cases answer with
    | called => exact ⟨.called view, rfl⟩
    | _ => cases h
  | locking tz =>
    cases answer with
    | lock apiKey => exact ⟨.granted ⟨apiKey, 0⟩, rfl⟩
    | dropped => exact ⟨.dropped, rfl⟩
    | _ => cases h
  | resolving tz stage =>
    cases stage with
    | authenticating apiKey =>
      cases answer with
      | token result =>
        cases result with
        | error e => exact ⟨.answered view (.error e), rfl⟩
        | ok token =>
          obtain ⟨response, hread⟩ := hreadable
          exact ⟨.answered view (.ok response), congrArg (some ∘ Answer.token) hread⟩
      | dropped => exact ⟨.dropped, rfl⟩
      | _ => cases h
    | listing token =>
      cases answer with
      | accounts result =>
        cases result with
        | error e => exact ⟨.answered view (.error e), rfl⟩
        | ok numbers =>
          obtain ⟨response, hread⟩ := hreadable
          exact ⟨.answered view (.ok response), congrArg (some ∘ Answer.accounts) hread⟩
      | dropped => exact ⟨.dropped, rfl⟩
      | _ => cases h
    | searching token number rest =>
      cases answer with
      | account now result =>
        cases result with
        | error e => exact ⟨.answered ⟨.error "", now⟩ (.error e), rfl⟩
        | ok account =>
          obtain ⟨response, hread⟩ := hreadable
          exact ⟨.answered ⟨.error "", now⟩ (.ok response), congrArg (some ∘ Answer.account now) hread⟩
      | dropped => exact ⟨.dropped, rfl⟩
      | _ => cases h
  | requesting tz auth request =>
    cases answer with
    | unauthorized => exact ⟨.answered view (.ok ⟨401, "", .error ""⟩), rfl⟩
    | rates result =>
      cases result with
      | error e => exact ⟨.answered view (.error e), rfl⟩
      | ok results =>
        obtain ⟨response, hstatus, hresults⟩ := hreadable
        refine ⟨.answered view (.ok response), ?_⟩
        rw [OctopusProvider.observe, if_neg hstatus, hresults]
    | dropped => exact ⟨.dropped, rfl⟩
    | _ => cases h
  | rejected auth =>
    cases answer with
    | clear => exact ⟨.granted view, rfl⟩
    | dropped => exact ⟨.dropped, rfl⟩
    | _ => cases h
  | returned | panicked | dropped =>
    cases answer with
    | _ => cases h

/-- A result is read from a response, and never from what broke a request off. -/
theorem exists_response {read : Except String HttpResponse → Except String α}
    (herror : ∀ e, read (.error e) = .error e) (h : read answer = .ok a) :
    ∃ response, read (.ok response) = .ok a := by
  cases answer with
  | error e =>
    rw [herror] at h
    cases h
  | ok response => exact ⟨response, h⟩

/-- What is observed in an event was read from its response. -/
theorem OctopusProvider.readable_of_observe (h : env.observe p e = some answer) :
    env.Readable answer := by
  rw [OctopusProvider.observe.eq_def] at h
  split at h
  · cases h
    exact True.intro
  · cases h
    exact True.intro
  · rename_i answer
    cases h
    cases hread : env.readToken answer with
    | error e => exact True.intro
    | ok token => exact exists_response (fun _ => rfl) hread
  · rename_i answer
    cases h
    cases hread : env.readNumbers answer with
    | error e => exact True.intro
    | ok numbers => exact exists_response (fun _ => rfl) hread
  · rename_i answer
    cases h
    cases hread : env.readAccount answer with
    | error e => exact True.intro
    | ok account => exact exists_response (fun _ => rfl) hread
  · split at h
    · cases h
      exact True.intro
    · rename_i response
      split at h
      · cases h
        exact True.intro
      · rename_i hstatus
        cases h
        cases hread : env.readRates response with
        | error e => exact True.intro
        | ok results => exact ⟨response, hstatus, hread⟩
  · cases h
    exact True.intro
  · cases h
    exact True.intro
  · cases h

section Calls
variable [DecidableEq ι]

theorem OctopusProvider.state_call_put (s : FetchState ι) (i : ι) (p : Phase) :
    (env.state (s.put i p)).call = Function.update (env.state s).call i (env.call i p) := by
  funext j
  by_cases hj : j = i
  · subst hj
    rw [Function.update_self]
    exact congrArg (env.call j) (s.put_phase_self j p)
  · rw [Function.update_of_ne hj]
    exact congrArg (env.call j) (s.put_phase_of_ne p hj)

theorem FetchEnv.resolveAuth_account (env : FetchEnv ι) (i : ι) (tz : Tz) (s : FetchState ι)
    (token number : String) (rest : List String) (now : Int) (account : Account) :
    env.resolveAuth i tz s (.searching token number rest) (.account now (.ok account)) =
      match findAgileTariff now account, rest with
      | some tariffCode, _ => some (env.accept i tz token tariffCode s)
      | none, [] => some (s.fail i "No active Agile tariff found across all accounts")
      | none, number :: rest => some (s.put i (.resolving tz (.searching token number rest))) := rfl

/-- A call goes on to the await of its next phase. -/
theorem OctopusProvider.goOn_eq {w : State octopus ι (List PricedWindow)}
    (hw : w.call = (env.state s).call) (hphase : s'.phase = (s.put i p).phase)
    (hcall : env.call i p = .running q)
    (hsettle : settle view prog w.toShared = (q, (env.state s').toShared)) :
    w.goOn i view prog = env.state s' := by
  have hcalls : (env.state s').call = (env.state (s.put i p)).call :=
    congrArg (fun phase : ι → Phase => fun j => env.call j (phase j)) hphase
  rw [env.state_call_put, ← hw, hcall] at hcalls
  rw [State.goOn, hsettle, ← hcalls]

/-- The calls of the provider, each a run of its program. -/
def OctopusProvider.step (e : ι × Event octopus) (w : State octopus ι (List PricedWindow)) :
    Option (State octopus ι (List PricedWindow)) :=
  Async.step (fun i => env.fetchPricedWindows (env.input i)) e w

/-- A call without the lock that is dropped leaves that as it is. -/
theorem OctopusProvider.drop_free (hs : CacheInvariant s) (h : (s.phase i).holds = false) :
    (env.state s).drop i = env.state (s.put i .dropped) := by
  have hholder : ¬ (env.state s).holder = some i := by
    intro hlock
    rw [(hs.holder i).2 hlock] at h
    cases h
  rw [State.drop, if_neg hholder]
  exact congrArg (State.mk _) (env.state_call_put s i .dropped).symm

theorem OctopusProvider.drop_holder (hs : CacheInvariant s) (h : (s.phase i).holds = true) :
    (env.state s).drop i = env.state (s.release i .dropped) := by
  have hholder : (env.state s).holder = some i := (hs.holder i).1 h
  rw [State.drop, if_pos hholder]
  exact congrArg (State.mk _) (env.state_call_put s i .dropped).symm

theorem OctopusProvider.step_idle (hphase : s.phase i = .idle) (e : Event octopus) :
    env.step (i, e) (env.state s) =
      ((env.observe .idle e).bind (env.start i s)).map env.state := by
  rw [OctopusProvider.step, Async.step, env.state_call hphase]
  cases e with
  | called view =>
    change _ = (env.start i s .called).map env.state
    rw [FetchEnv.start, OctopusProvider.fetchPricedWindows]
    cases env.tzdb (env.input i).timezone with
    | none => exact congrArg some (env.goOn_eq rfl rfl rfl rfl)
    | some tz => exact congrArg some (env.goOn_eq rfl rfl rfl rfl)
  | _ => rfl

/-- The lock is given to no call while another has it. -/
theorem OctopusProvider.step_locking (hs : CacheInvariant s) (hphase : s.phase i = .locking tz)
    (e : Event octopus) :
    env.step (i, e) (env.state s) =
      ((env.observe (.locking tz) e).bind (env.lockAuth i tz s)).map env.state := by
  rw [OctopusProvider.step, Async.step, env.state_call hphase]
  cases e with
  | granted view =>
    obtain ⟨cache, lock, phase, generations⟩ := s
    change _ = (env.lockAuth i tz _ (.lock view.apiKey)).map env.state
    cases lock with
    | some j => rfl
    | none =>
      cases cache with
      | some auth =>
        exact congrArg some (env.goOn_eq rfl rfl (env.call_request i tz auth)
          (env.settle_cached i tz view (some i) auth.token auth.tariffCode))
      | none =>
        cases hkey : view.apiKey with
        | error e =>
          exact congrArg some (env.goOn_eq rfl rfl rfl (env.settle_keyless i tz view (some i) hkey))
        | ok apiKey =>
          exact congrArg some (env.goOn_eq rfl rfl rfl (env.settle_key i tz view (some i) hkey))
  | dropped => exact congrArg some (env.drop_free hs (by rw [hphase]; rfl))
  | _ => rfl

theorem OctopusProvider.step_authenticating (hs : CacheInvariant s)
    (hphase : s.phase i = .resolving tz (.authenticating apiKey)) (e : Event octopus) :
    env.step (i, e) (env.state s) =
      ((env.observe (.resolving tz (.authenticating apiKey)) e).bind
        (env.toFetchEnv.resolveAuth i tz s (.authenticating apiKey))).map env.state := by
  rw [OctopusProvider.step, Async.step, env.state_call hphase]
  cases e with
  | answered view answer =>
    change some ((env.state s).goOn i view (env.fetching i tz (do
      let token ← other (env.readToken answer)
      env.discoverTariff token : Fetch (String × String)).guarded)) = Option.map _
        (env.toFetchEnv.resolveAuth i tz s (.authenticating apiKey)
          (.token (env.readToken answer)))
    cases env.readToken answer with
    | error e => exact congrArg some (env.goOn_eq rfl rfl rfl rfl)
    | ok token => exact congrArg some (env.goOn_eq rfl rfl rfl rfl)
  | dropped => exact congrArg some (env.drop_holder hs (by rw [hphase]; rfl))
  | _ => rfl

theorem OctopusProvider.step_listing (hs : CacheInvariant s)
    (hphase : s.phase i = .resolving tz (.listing token)) (e : Event octopus) :
    env.step (i, e) (env.state s) =
      ((env.observe (.resolving tz (.listing token)) e).bind
        (env.toFetchEnv.resolveAuth i tz s (.listing token))).map env.state := by
  rw [OctopusProvider.step, Async.step, env.state_call hphase]
  cases e with
  | answered view answer =>
    change some ((env.state s).goOn i view (env.fetching i tz (do
      let accountNumbers ← other (env.readNumbers answer)
      if accountNumbers.isEmpty then
        other (.error "No accounts found for the provided API key")
      else
        OctopusProvider.keepTariff token (← env.findTariff token accountNumbers) :
          Fetch (String × String)).guarded)) = Option.map _
        (env.toFetchEnv.resolveAuth i tz s (.listing token)
          (.accounts (env.readNumbers answer)))
    cases env.readNumbers answer with
    | error e => exact congrArg some (env.goOn_eq rfl rfl rfl rfl)
    | ok numbers =>
      cases numbers with
      | nil => exact congrArg some (env.goOn_eq rfl rfl rfl rfl)
      | cons number rest => exact congrArg some (env.goOn_eq rfl rfl rfl rfl)
  | dropped => exact congrArg some (env.drop_holder hs (by rw [hphase]; rfl))
  | _ => rfl

/-- The account that was asked for ends the search, or the next one is asked for. -/
theorem OctopusProvider.step_found (account : Account) (view : Surroundings) :
    some ((env.state s).goOn i view (env.fetching i tz (do
      let found ← (do
        let account ← other (.ok account)
        match findAgileTariff (← Prog.ask .look : Surroundings).now account with
        | some code => return some code
        | none => env.findTariff token rest : Fetch (Option String))
      OctopusProvider.keepTariff token found : Fetch (String × String)).guarded)) =
      (env.toFetchEnv.resolveAuth i tz s (.searching token number rest)
        (.account view.now (.ok account))).map env.state := by
  have hsettle := env.settle_account i tz view (env.state s).toShared token rest account
  rw [FetchEnv.resolveAuth_account]
  cases hfound : findAgileTariff view.now account with
  | some tariffCode =>
    rw [hfound] at hsettle
    have hkept := hsettle.trans (env.settle_kept i tz view (env.state s).toShared token tariffCode)
    change _ = some (env.state (env.accept i tz token tariffCode s))
    rw [FetchEnv.accept]
    split
    · rename_i hformat
      rw [if_pos hformat] at hkept
      exact congrArg some (env.goOn_eq rfl rfl rfl hkept)
    · rename_i hformat
      rw [if_neg hformat] at hkept
      exact congrArg some (env.goOn_eq rfl rfl (env.call_request i tz _) hkept)
  | none =>
    rw [hfound] at hsettle
    cases rest with
    | nil => exact congrArg some (env.goOn_eq rfl rfl rfl hsettle)
    | cons number' rest => exact congrArg some (env.goOn_eq rfl rfl rfl hsettle)

theorem OctopusProvider.step_searching (hs : CacheInvariant s)
    (hphase : s.phase i = .resolving tz (.searching token number rest)) (e : Event octopus) :
    env.step (i, e) (env.state s) =
      ((env.observe (.resolving tz (.searching token number rest)) e).bind
        (env.toFetchEnv.resolveAuth i tz s (.searching token number rest))).map env.state := by
  rw [OctopusProvider.step, Async.step, env.state_call hphase]
  cases e with
  | answered view answer =>
    change some ((env.state s).goOn i view (env.fetching i tz (do
      let found ← (do
        let account ← other (env.readAccount answer)
        match findAgileTariff (← Prog.ask .look : Surroundings).now account with
        | some code => return some code
        | none => env.findTariff token rest : Fetch (Option String))
      OctopusProvider.keepTariff token found : Fetch (String × String)).guarded)) = Option.map _
        (env.toFetchEnv.resolveAuth i tz s (.searching token number rest)
          (.account view.now (env.readAccount answer)))
    cases env.readAccount answer with
    | error e => exact congrArg some (env.goOn_eq rfl rfl rfl rfl)
    | ok account => exact env.step_found account view
  | dropped => exact congrArg some (env.drop_holder hs (by rw [hphase]; rfl))
  | _ => rfl

theorem OctopusProvider.step_requesting (hs : CacheInvariant s)
    (hphase : s.phase i = .requesting tz auth request) (e : Event octopus) :
    env.step (i, e) (env.state s) =
      ((env.observe (.requesting tz auth request) e).bind (env.receive i tz auth s)).map
        env.state := by
  rw [OctopusProvider.step, Async.step, env.state_call hphase]
  cases e with
  | answered view answer =>
    change some ((env.state s).goOn i view (env.receiveRates (env.input i).date tz answer)) = _
    cases answer with
    | error e => exact congrArg some (env.goOn_eq rfl rfl rfl rfl)
    | ok response =>
      rw [OctopusProvider.observe]
      by_cases h : response.status = 401
      · rw [env.receiveRates_unauthorized h, if_pos h]
        exact congrArg some (env.goOn_eq rfl rfl rfl rfl)
      · rw [env.receiveRates_authorized h, if_neg h]
        cases env.readRates response with
        | error e => exact congrArg some (env.goOn_eq rfl rfl rfl rfl)
        | ok results =>
          exact congrArg some (env.goOn_eq rfl rfl rfl (settle_fetched view _ _))
  | dropped => exact congrArg some (env.drop_free hs (by rw [hphase]; rfl))
  | _ => rfl

theorem OctopusProvider.step_rejected (hs : CacheInvariant s) (hphase : s.phase i = .rejected auth)
    (e : Event octopus) :
    env.step (i, e) (env.state s) =
      ((env.observe (.rejected auth) e).bind (s.invalidate i)).map env.state := by
  rw [OctopusProvider.step, Async.step, env.state_call hphase]
  cases e with
  | granted view =>
    obtain ⟨cache, lock, phase, generations⟩ := s
    cases lock with
    | some j => rfl
    | none => exact congrArg some (env.goOn_eq rfl rfl rfl rfl)
  | dropped => exact congrArg some (env.drop_free hs (by rw [hphase]; rfl))
  | _ => rfl

/-- What an event does to the calls of the provider is what its answer does at their awaits. -/
theorem OctopusProvider.step_state (hs : CacheInvariant s) (i : ι) (e : Event octopus) :
    env.step (i, e) (env.state s) =
      ((env.observe (s.phase i) e).bind fun answer =>
        Gridshift.step env.toFetchEnv (i, answer) s).map env.state := by
  simp only [Gridshift.step]
  cases hphase : s.phase i with
  | idle => exact env.step_idle hphase e
  | locking tz => exact env.step_locking hs hphase e
  | resolving tz stage =>
    cases stage with
    | authenticating apiKey => exact env.step_authenticating hs hphase e
    | listing token => exact env.step_listing hs hphase e
    | searching token number rest => exact env.step_searching hs hphase e
  | requesting tz auth request => exact env.step_requesting hs hphase e
  | rejected auth => exact env.step_rejected hs hphase e
  | returned result =>
    rw [OctopusProvider.step, Async.step, env.state_call hphase]
    cases result with
    | _ => cases e with
      | _ => rfl
  | panicked cause =>
    rw [OctopusProvider.step, Async.step, env.state_call hphase]
    cases e with
    | _ => rfl
  | dropped =>
    rw [OctopusProvider.step, Async.step, env.state_call hphase]
    cases e with
    | _ => rfl

/-- What the machine of the awaits observes in an event. -/
def OctopusProvider.observes (s : FetchState ι) (e : ι × Event octopus) : Option (ι × Answer) :=
  (env.observe (s.phase e.1) e.2).map (Prod.mk e.1)

theorem OctopusProvider.tracks :
    Tracks env.step (Gridshift.step env.toFetchEnv) env.observes env.state CacheInvariant := by
  intro e s hs
  rw [OctopusProvider.observes, Option.bind_map]
  exact env.step_state hs e.1 e.2

theorem OctopusProvider.run_iff {env : OctopusProvider ι} {es : List (ι × Event octopus)}
    {w : State octopus ι (List PricedWindow)} :
    run env.step es (env.state .initial) = some w ↔ ∃ answers s,
      observed (Gridshift.step env.toFetchEnv) env.observes es .initial = some answers ∧
      run (Gridshift.step env.toFetchEnv) answers .initial = some s ∧ env.state s = w :=
  env.tracks.run_iff (fun _ _ _ hs hstep => hs.moves (moves_of_step hstep)) .initial

/-- In every order of their events, the programs of the calls, with their requests and the responses
that these are answered with, do just what the machine of their awaits does; and of what that machine
does they do as much as some response can be read as. -/
theorem programs_follow_awaits :
    (∀ es w, run env.step es (env.state .initial) = some w ↔
      ∃ answers s, observed (Gridshift.step env.toFetchEnv) env.observes es .initial = some answers ∧
        run (Gridshift.step env.toFetchEnv) answers .initial = some s ∧ env.state s = w) ∧
    ∀ answers s, run (Gridshift.step env.toFetchEnv) answers .initial = some s →
      ((∀ e ∈ answers, env.Readable e.2) ↔
        ∃ es, observed (Gridshift.step env.toFetchEnv) env.observes es .initial = some answers ∧
          run env.step es (env.state .initial) = some (env.state s)) := by
  refine ⟨fun es w => env.run_iff, ?_⟩
  intro answers s hrun
  have hobserve (e : ι × Answer) (t u : FetchState ι)
      (hstep : Gridshift.step env.toFetchEnv e t = some u) :
      env.Readable e.2 ↔ ∃ e', env.observes t e' = some e := by
    obtain ⟨i, answer⟩ := e
    have hawaits := ((step_isSome_iff env.toFetchEnv t i answer).1 (by rw [hstep]; rfl)).1
    constructor
    · intro hreadable
      obtain ⟨e', he'⟩ := env.exists_observe hreadable hawaits
      exact ⟨(i, e'), congrArg (Option.map (Prod.mk i)) he'⟩
    · rintro ⟨⟨j, e'⟩, he'⟩
      obtain ⟨answer', hobs, hpair⟩ := Option.map_eq_some_iff.1 he'
      cases hpair
      exact env.readable_of_observe hobs
  rw [exists_observed_iff hobserve hrun]
  constructor
  · rintro ⟨es, hes⟩
    exact ⟨es, hes, env.run_iff.2 ⟨answers, s, hes, hrun, rfl⟩⟩
  · rintro ⟨es, hes, -⟩
    exact ⟨es, hes⟩

end Calls

end Programs

section Sample

/-- Documents are told from each other by their text. -/
def readAs (documents : List (String × α)) (response : HttpResponse) : Except String α := do
  let body ← response.body
  match documents.find? fun d => d.1.toUTF8 = body with
  | some d => return d.2
  | none => .error "error decoding response body"

def tokenText (token : String) : String :=
  "\x7b\"data\":\x7b\"obtainKrakenToken\":\x7b\"token\":\"" ++ token ++ "\"\x7d\x7d\x7d"

def accountsText : String :=
  "\x7b\"data\":\x7b\"viewer\":\x7b\"accounts\":[\x7b\"number\":\"A-1\"\x7d]\x7d\x7d\x7d"

@[irreducible] def accountText : String :=
  "\x7b\"properties\":[\x7b\"electricity_meter_points\":[\x7b\"agreements\":[" ++
    "\x7b\"tariff_code\":\"E-1R-OUTGOING-AGILE-19-05-13-C\"\x7d," ++
    "\x7b\"tariff_code\":\"E-1R-AGILE-FLEX-22-11-25-C\"," ++
    "\"valid_from\":\"2023-01-01T00:00:00Z\",\"valid_to\":null\x7d]\x7d]\x7d]\x7d"

def ratesText : String :=
  "\x7b\"count\":1,\"results\":[" ++
    "\x7b\"value_inc_vat\":12,\"valid_from\":\"2024-01-01T00:00:00Z\"\x7d]\x7d"

/-- The documents of two key exchanges, and those of one account and of one rate. -/
def utcProvider : OctopusProvider Nat :=
  { utcCalls with
    errorForStatus := fun response =>
      if 400 ≤ response.status ∧ response.status < 600 then .error "HTTP status error"
      else .ok response
    authResponse := readAs [(tokenText "jwt-1", ⟨⟨⟨"jwt-1"⟩⟩⟩), (tokenText "jwt-2", ⟨⟨⟨"jwt-2"⟩⟩⟩)]
    viewerResponse := readAs [(accountsText, ⟨⟨⟨[⟨"A-1"⟩]⟩⟩⟩)]
    account := readAs [(accountText, agileAccount)]
    octopusResponse := readAs [(ratesText, ⟨[⟨.finite 12, 1704067200⟩]⟩)] }

def utcView : Surroundings := ⟨.ok "sk", 1704100000⟩

def served (text : String) : HttpResponse := ⟨200, "https://api.octopus.energy/", .ok text.toUTF8⟩

theorem readAs_served (text : String) (a : α) : readAs [(text, a)] (served text) = .ok a := by
  change (match List.find? (fun d => d.1.toUTF8 = text.toUTF8) [(text, a)] with
    | some d => Except.ok d.2
    | none => .error "error decoding response body") = _
  rw [List.find?_cons_of_pos (by simp)]

theorem utcProvider_readNumbers :
    utcProvider.readNumbers (.ok (served accountsText)) = .ok ["A-1"] := by
  change (readAs [(accountsText, _)] (served accountsText) >>= _) = _
  rw [readAs_served]
  rfl

theorem utcProvider_readAccount :
    utcProvider.readAccount (.ok (served accountText)) = .ok agileAccount :=
  readAs_served accountText agileAccount

theorem readable_login (htoken : utcProvider.Readable (.token (.ok token))) :
    ∀ e ∈ login i token, utcProvider.Readable e.2 := by
  intro e he
  simp only [login, List.mem_cons, List.not_mem_nil, or_false] at he
  rcases he with rfl | rfl | rfl | rfl | rfl
  · exact True.intro
  · exact True.intro
  · exact htoken
  · exact ⟨_, utcProvider_readNumbers⟩
  · exact ⟨_, utcProvider_readAccount⟩

/-- The programs can be answered so that two of them log in, with a rejection of each between. -/
theorem programs_follow_awaits_late :
    ∃ es w, observed (Gridshift.step utcCalls) utcProvider.observes es .initial =
        some lateRejection ∧
      run utcProvider.step es (utcProvider.state .initial) = some w ∧
      w.value = some ("jwt-2", "E-1R-AGILE-FLEX-22-11-25-C") := by
  have hreadable : ∀ e ∈ lateRejection, utcProvider.Readable e.2 := by
    rw [lateRejection, List.forall_mem_append, List.forall_mem_append, List.forall_mem_append]
    refine ⟨⟨⟨readable_login ⟨served (tokenText "jwt-1"), rfl⟩, ?_⟩,
      readable_login ⟨served (tokenText "jwt-2"), rfl⟩⟩, ?_⟩
    · simp [OctopusProvider.Readable]
    · simp [OctopusProvider.Readable]
  obtain ⟨es, hobs, hrun⟩ := ((programs_follow_awaits utcProvider).2 lateRejection _ rfl).1 hreadable
  exact ⟨es, _, hobs, hrun, rfl⟩

end Sample

end Gridshift
