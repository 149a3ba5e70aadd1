import Gridshift.FetchPeriod
import Gridshift.Machine
import Gridshift.Tariff

namespace Gridshift
open Machine
set_option autoImplicit true

/-- A token with the tariff found by it. The generation, which the code does not keep, counts
the times that the cache was filled before. -/
structure Auth where
  token : String
  tariffCode : String
  generation : Nat
deriving DecidableEq, Repr

structure RatesRequest where
  url : String
  periodFrom : String
  periodTo : String
deriving DecidableEq, Repr

/-- The awaits of `resolve_auth` under the lock. -/
inductive Stage where
  | authenticating (apiKey : String)
  | listing (token : String)
  | searching (token number : String) (rest : List String)
deriving DecidableEq, Repr

inductive Panic where
  | sliceOutOfRange
  | dateOverflow
deriving DecidableEq, Repr

/-- The await at which a call to `fetch_priced_windows` stands, or how it ended. -/
inductive Phase where
  | idle
  | locking (tz : Tz)
  | resolving (tz : Tz) (stage : Stage)
  | requesting (tz : Tz) (auth : Auth) (request : RatesRequest)
  | rejected (auth : Auth)
  | returned (result : Except ProviderError (List PricedWindow))
  | panicked (panic : Panic)
  | dropped

/-- What lets a call go on: it is made, gets the lock or an answer, or is dropped. -/
inductive Answer where
  | called
  | lock (apiKey : Except String String)
  | token (answer : Except String String)
  | accounts (answer : Except String (List String))
  | account (now : Int) (answer : Except String Account)
  | unauthorized
  | rates (answer : Except String (List OctopusRate))
  | clear
  | dropped

structure FetchState (ι : Type) where
  cache : Option Auth
  lock : Option ι
  phase : ι → Phase
  generations : Nat

/-- The arguments of the calls, with what they use of the calendar and of the clock's zones. -/
structure FetchEnv (ι : Type) where
  input : ι → FetchWindowsInput
  tzdb : String → Option Tz
  succOpt : NaiveDate → Option NaiveDate
  formatBoundary : Int → String
  formatTime : Int → String
  formatRat : Rat → String

def FetchState.initial : FetchState ι := ⟨none, none, fun _ => .idle, 0⟩

def Phase.failed (message : String) : Phase := .returned (.error (.other message))

/-- The call holds the lock. -/
def Phase.holds : Phase → Bool
  | .resolving _ _ => true
  | _ => false

/-- What a call resolved, until its answer is dealt with. -/
def Phase.auth? : Phase → Option Auth
  | .requesting _ auth _ => some auth
  | .rejected auth => some auth
  | _ => none

def Stage.token? : Stage → Option String
  | .authenticating _ => none
  | .listing token => some token
  | .searching token _ _ => some token

def Phase.token? : Phase → Option String
  | .resolving _ stage => stage.token?
  | _ => none

/-- The call ended, or was ended, without a request. -/
def Phase.Failed (p : Phase) : Prop := (∃ message, p = .failed message) ∨ p = .dropped

/-- A call that has neither the lock nor a token, and did not panic. -/
inductive Phase.Quiet : Phase → Prop where
  | locking : Quiet (.locking tz)
  | returned : Quiet (.returned result)
  | dropped : Quiet .dropped

theorem Phase.Quiet.holds_eq (h : Phase.Quiet p) : p.holds = false := by
  cases h with
  | _ => rfl

theorem Phase.Quiet.token?_eq (h : Phase.Quiet p) : p.token? = none := by
  cases h with
  | _ => rfl

theorem Phase.Quiet.auth?_eq (h : Phase.Quiet p) : p.auth? = none := by
  cases h with
  | _ => rfl

/-- A call that has a pair: it sends its request, or panics before that. -/
inductive Phase.Sends (auth : Auth) : Phase → Prop where
  | requesting : Sends auth (.requesting tz auth req)
  | panicked : Sends auth (.panicked cause)

theorem Phase.Sends.holds_eq (h : Phase.Sends auth p) : p.holds = false := by
  cases h with
  | _ => rfl

theorem Phase.Sends.token?_eq (h : Phase.Sends auth p) : p.token? = none := by
  cases h with
  | _ => rfl

theorem Phase.Sends.eq_of_auth? (h : Phase.Sends auth p) (ha : p.auth? = some a) : a = auth := by
  cases h with
  | requesting => exact (Option.some.inj ha).symm
  | panicked => cases ha

theorem Phase.Sends.not_failed (h : Phase.Sends auth p) : ¬ p.Failed := by
  rintro (⟨message, rfl⟩ | rfl)
  · cases h
  · cases h

def ratesUrl (product tariffCode : String) : String :=
  s!"https://api.octopus.energy/v1/products/{product}/electricity-tariffs/{tariffCode}/standard-unit-rates/"

def FetchEnv.request (env : FetchEnv ι) (i : ι) (tz : Tz) (auth : Auth) : Phase :=
  match productCode auth.tariffCode with
  | none => .panicked .sliceOutOfRange
  | some product =>
    match env.succOpt (env.input i).date with
    | none => .panicked .dateOverflow
    | some next => .requesting tz auth {
        url := ratesUrl product auth.tariffCode
        periodFrom := env.formatBoundary (midnight tz (env.input i).date)
        periodTo := env.formatBoundary (midnight tz next) }

theorem FetchEnv.request_sends (env : FetchEnv ι) (i : ι) (tz : Tz) (auth : Auth) :
    (env.request i tz auth).Sends auth := by
  rw [FetchEnv.request]
  split
  · exact .panicked
  · split
    · exact .panicked
    · exact .requesting

section Calls
variable [DecidableEq ι]

def FetchState.put (s : FetchState ι) (i : ι) (p : Phase) : FetchState ι :=
  { s with phase := Function.update s.phase i p }

/-- A call leaves `resolve_auth` without a tariff, and the guard of the lock is dropped. -/
def FetchState.release (s : FetchState ι) (i : ι) (p : Phase) : FetchState ι :=
  { s.put i p with lock := none }

def FetchState.fail (s : FetchState ι) (i : ι) (message : String) : FetchState ι :=
  s.release i (.failed message)

/-- The end of `resolve_auth` once a tariff is found: its format is checked, and the pair kept. -/
def FetchEnv.accept (env : FetchEnv ι) (i : ι) (tz : Tz) (token tariffCode : String)
    (s : FetchState ι) : FetchState ι :=
  if (segments tariffCode).length < 4 then
    s.fail i s!"unexpected tariff code format {debugStr tariffCode} (expected at least 4 dash-separated segments, e.g. E-1R-AGILE-FLEX-22-11-25-C)"
  else
    let auth : Auth := ⟨token, tariffCode, s.generations⟩
    { s.put i (env.request i tz auth) with
      cache := some auth
      lock := none
      generations := s.generations + 1 }

def FetchEnv.start (env : FetchEnv ι) (i : ι) (s : FetchState ι) : Answer → Option (FetchState ι)
  | .called =>
    match env.tzdb (env.input i).timezone with
    | none => some (s.put i (.failed s!"invalid timezone {debugStr (env.input i).timezone}"))
    | some tz => some (s.put i (.locking tz))
  | _ => none

/-- The beginning of `resolve_auth`: a cached pair is taken, and else the lock kept. -/
def FetchEnv.lockAuth (env : FetchEnv ι) (i : ι) (tz : Tz) (s : FetchState ι) :
    Answer → Option (FetchState ι)
  | .lock apiKey =>
    if s.lock.isSome then none
    else match s.cache, apiKey with
      | some auth, _ => some (s.put i (env.request i tz auth))
      | none, .error e => some (s.put i (.failed s!"OCTOPUS_API_KEY not set: {e}"))
      | none, .ok apiKey =>
        some { s.put i (.resolving tz (.authenticating apiKey)) with lock := some i }
  | .dropped => some (s.put i .dropped)
  | _ => none

/-- The rest of `resolve_auth`, from one answer to the next. -/
def FetchEnv.resolveAuth (env : FetchEnv ι) (i : ι) (tz : Tz) (s : FetchState ι) :
    Stage → Answer → Option (FetchState ι)
  | .authenticating _, .token (.error e) => some (s.fail i e)
  | .authenticating _, .token (.ok token) => some (s.put i (.resolving tz (.listing token)))
  | .listing _, .accounts (.error e) => some (s.fail i e)
  | .listing _, .accounts (.ok []) => some (s.fail i "No accounts found for the provided API key")
  | .listing token, .accounts (.ok (number :: rest)) =>
    some (s.put i (.resolving tz (.searching token number rest)))
  | .searching _ _ _, .account _ (.error e) => some (s.fail i e)
  | .searching token _ rest, .account now (.ok account) =>
    match findAgileTariff now account, rest with
    | some tariffCode, _ => some (env.accept i tz token tariffCode s)
    | none, [] => some (s.fail i "No active Agile tariff found across all accounts")
    | none, number :: rest => some (s.put i (.resolving tz (.searching token number rest)))
  | _, .dropped => some (s.release i .dropped)
  | _, _ => none

/-- The end of `fetch_priced_windows`, from the answer to its request. -/
def FetchEnv.receive (env : FetchEnv ι) (i : ι) (tz : Tz) (auth : Auth) (s : FetchState ι) :
    Answer → Option (FetchState ι)
  | .unauthorized => some (s.put i (.rejected auth))
  | .rates (.error e) => some (s.put i (.failed e))
  | .rates (.ok results) =>
    some (s.put i (.returned (pricedWindowsOf env.formatRat env.formatTime (env.input i).date tz
      results)))
  | .dropped => some (s.put i .dropped)
  | _ => none

/-- What follows a 401: the lock, for no longer than it takes to empty the cache. -/
def FetchState.invalidate (s : FetchState ι) (i : ι) : Answer → Option (FetchState ι)
  | .clear =>
    if s.lock.isSome then none
    else some { s.put i (.failed
      "Octopus API returned 401: token expired, will re-authenticate on retry") with cache := none }
  | .dropped => some (s.put i .dropped)
  | _ => none

/-- A call goes on from its await to the next one; `none` where the answer is to another await,
or the lock is taken. -/
def step (env : FetchEnv ι) (e : ι × Answer) (s : FetchState ι) : Option (FetchState ι) :=
  match s.phase e.1 with
  | .idle => env.start e.1 s e.2
  | .locking tz => env.lockAuth e.1 tz s e.2
  | .resolving tz stage => env.resolveAuth e.1 tz s stage e.2
  | .requesting tz auth _ => env.receive e.1 tz auth s e.2
  | .rejected _ => s.invalidate e.1 e.2
  | _ => none

@[simp] theorem FetchState.put_phase_self (s : FetchState ι) (i : ι) (p : Phase) :
    (s.put i p).phase i = p := Function.update_self ..

theorem FetchState.put_phase_of_ne (s : FetchState ι) (p : Phase) (h : j ≠ i) :
    (s.put i p).phase j = s.phase j := Function.update_of_ne h ..

@[simp] theorem FetchState.put_cache (s : FetchState ι) (i : ι) (p : Phase) :
    (s.put i p).cache = s.cache := rfl

/-- What a step of a call does to the cache, the lock and its own phase. -/
inductive Moves (env : FetchEnv ι) (s : FetchState ι) (i : ι) : Answer → FetchState ι → Prop where
  | quiet (hfree : (s.phase i).holds = false) (hp : p.Quiet) : Moves env s i answer (s.put i p)
  | reject (h : s.phase i = .requesting tz auth request) :
    Moves env s i .unauthorized (s.put i (.rejected auth))
  | hit (h : s.phase i = .locking tz) (hlock : s.lock = none) (hcache : s.cache = some auth) :
    Moves env s i (.lock apiKey) (s.put i (env.request i tz auth))
  | hold (h : s.phase i = .locking tz) (hlock : s.lock = none) (hcache : s.cache = none) :
    Moves env s i (.lock (.ok apiKey))
      { s.put i (.resolving tz (.authenticating apiKey)) with lock := some i }
  | keep (h : s.phase i = .resolving tz stage)
    (htoken : ∀ t, stage'.token? = some t → stage.token? = some t ∨ answer = .token (.ok t)) :
    Moves env s i answer (s.put i (.resolving tz stage'))
  | release (h : (s.phase i).holds = true) (hp : p.Quiet) :
    Moves env s i answer (s.release i p)
  | fill (h : s.phase i = .resolving tz (.searching token number rest))
    (hfound : findAgileTariff now account = some tariffCode)
    (hformat : 4 ≤ (segments tariffCode).length) :
    Moves env s i (.account now (.ok account))
      { s.put i (env.request i tz ⟨token, tariffCode, s.generations⟩) with
        cache := some ⟨token, tariffCode, s.generations⟩
        lock := none
        generations := s.generations + 1 }
  | clear (h : s.phase i = .rejected auth) (hlock : s.lock = none) (hp : p.Quiet) :
    Moves env s i .clear { s.put i p with cache := none }

theorem FetchEnv.moves_accept {env : FetchEnv ι}
    (h : s.phase i = .resolving tz (.searching token number rest))
    (hfound : findAgileTariff now account = some tariffCode) :
    Moves env s i (.account now (.ok account)) (env.accept i tz token tariffCode s) := by
  rw [FetchEnv.accept]
  split
  · exact .release (by rw [h]; rfl) .returned
  · rename_i hformat
    exact .fill h hfound (Nat.not_lt.1 hformat)

theorem FetchEnv.moves_start {env : FetchEnv ι} (hfree : (s.phase i).holds = false)
    (h : env.start i s answer = some s') : Moves env s i answer s' := by
  rw [FetchEnv.start.eq_def] at h
  split at h
  · split at h
    · cases h
      exact .quiet hfree .returned
    · cases h
      exact .quiet hfree .locking
  · cases h

theorem FetchEnv.moves_lockAuth {env : FetchEnv ι} (hphase : s.phase i = .locking tz)
    (h : env.lockAuth i tz s answer = some s') : Moves env s i answer s' := by
  have hfree : (s.phase i).holds = false := by rw [hphase]; rfl
  rw [FetchEnv.lockAuth.eq_def] at h
  split at h
  · rename_i apiKey
    cases hlock : s.lock with
    | some j =>
      rw [hlock] at h
      cases h
    | none =>
      cases hcache : s.cache with
      | some auth =>
        rw [hlock, hcache] at h
        cases h
        exact .hit hphase hlock hcache
      | none =>
        rw [hlock, hcache] at h
        cases apiKey with
        | error e =>
          cases h
          exact .quiet hfree .returned
        | ok apiKey =>
          cases h
          exact .hold hphase hlock hcache
  · cases h
    exact .quiet hfree .dropped
  · cases h

theorem FetchEnv.moves_resolveAuth {env : FetchEnv ι} (hphase : s.phase i = .resolving tz stage)
    (h : env.resolveAuth i tz s stage answer = some s') : Moves env s i answer s' := by
  have hholds : (s.phase i).holds = true := by rw [hphase]; rfl
  rw [FetchEnv.resolveAuth.eq_def] at h
  split at h
  · cases h
    exact .release hholds .returned
  · cases h
    exact .keep hphase fun t ht => .inr (by cases ht; rfl)
  · cases h
    exact .release hholds .returned
  · cases h
    exact .release hholds .returned
  · cases h
    exact .keep hphase fun t ht => .inl ht
  · cases h
    exact .release hholds .returned
  · split at h
    · rename_i hfound
      cases h
      exact env.moves_accept hphase hfound
    · cases h
      exact .release hholds .returned
    · cases h
      exact .keep hphase fun t ht => .inl ht
  · cases h
    exact .release hholds .dropped
  · cases h

theorem FetchEnv.moves_receive {env : FetchEnv ι} (hphase : s.phase i = .requesting tz auth req)
    (h : env.receive i tz auth s answer = some s') : Moves env s i answer s' := by
  have hfree : (s.phase i).holds = false := by rw [hphase]; rfl
  rw [FetchEnv.receive.eq_def] at h
  split at h
  · cases h
    exact .reject hphase
  · cases h
    exact .quiet hfree .returned
  · cases h
    exact .quiet hfree .returned
  · cases h
    exact .quiet hfree .dropped
  · cases h

theorem FetchState.moves_invalidate {env : FetchEnv ι} (hphase : s.phase i = .rejected auth)
    (h : s.invalidate i answer = some s') : Moves env s i answer s' := by
  rw [FetchState.invalidate.eq_def] at h
  split at h
  · cases hlock : s.lock with
    | some j =>
      rw [hlock] at h
      cases h
    | none =>
      rw [hlock] at h
      cases h
      exact .clear hphase hlock .returned
  · cases h
    exact .quiet (by rw [hphase]; rfl) .dropped
  · cases h

theorem moves_of_step {env : FetchEnv ι} (h : step env (i, answer) s = some s') :
    Moves env s i answer s' := by
  simp only [step] at h
  split at h
  · rename_i hphase
    exact env.moves_start (by rw [hphase]; rfl) h
  · rename_i hphase
    exact env.moves_lockAuth hphase h
  · rename_i hphase
    exact env.moves_resolveAuth hphase h
  · rename_i hphase
    exact env.moves_receive hphase h
  · rename_i hphase
    exact FetchState.moves_invalidate hphase h
  · cases h

theorem step_phase_of_ne {env : FetchEnv ι} (h : step env (i, answer) s = some s') (hj : j ≠ i) :
    s'.phase j = s.phase j := by
  cases moves_of_step h with
  | _ => exact s.put_phase_of_ne _ hj

end Calls

end Gridshift
