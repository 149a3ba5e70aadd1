import Gridshift.OctopusSimulation

namespace Gridshift
open Async Machine Simulation
set_option autoImplicit true

/-- The request at a stage of `resolve_auth`. -/
def Stage.request : Stage → HttpRequest
  | .authenticating apiKey => authRequest apiKey
  | .listing token => accountNumbersRequest token
  | .searching token number _ => accountRequest token number

/-- The request has a key or a token in it. -/
def HttpRequest.Credentialed (request : HttpRequest) : Prop :=
  request.authorization ≠ none ∨ request.json ≠ none

theorem Stage.credentialed (stage : Stage) : stage.request.Credentialed := by
  cases stage with
  | authenticating apiKey => exact .inr (Option.some_ne_none _)
  | listing token => exact .inl (Option.some_ne_none _)
  | searching token number rest => exact .inl (Option.some_ne_none _)

theorem RatesRequest.not_credentialed (request : RatesRequest) : ¬ request.http.Credentialed := by
  rintro (h | h)
  · exact h rfl
  · exact h rfl

/-- How a call comes to a stage of `resolve_auth` from the await that it stood at. -/
inductive Stage.After : Phase → Answer → Stage → Prop where
  | lock : After (.locking tz) (.lock (.ok apiKey)) (.authenticating apiKey)
  | token : After (.resolving tz (.authenticating apiKey)) (.token (.ok token)) (.listing token)
  | accounts : After (.resolving tz (.listing token)) (.accounts (.ok (number :: rest)))
      (.searching token number rest)
  | account : After (.resolving tz (.searching token number (number' :: rest)))
      (.account now (.ok account)) (.searching token number' rest)

theorem FetchEnv.request_ne_resolving (env : FetchEnv ι) (i : ι) (tz : Tz) (auth : Auth) :
    env.request i tz auth ≠ .resolving tz' stage := by
  intro h
  have hsends := env.request_sends i tz auth
  rw [h] at hsends
  cases hsends

section Requests
variable [DecidableEq ι] (env : OctopusProvider ι)

/-- The request of a call was answered so, while it awaited that. -/
def OctopusProvider.Responded (es : List (ι × Event octopus)) (i : ι) (request : HttpRequest)
    (answer : Except String HttpResponse) : Prop :=
  ∃ before view after w, es = before ++ (i, .answered view answer) :: after ∧
    run env.step before (env.state .initial) = some w ∧ w.Sends i request

/-- What a call needs to have been told before it stands at a stage of `resolve_auth`: the key by
its surroundings, and the rest by the answers to its own requests. -/
inductive OctopusProvider.Backed (es : List (ι × Event octopus)) (i : ι) : Stage → Prop where
  | authenticating (h : (i, .granted view) ∈ es) (hkey : view.apiKey = .ok apiKey) :
    Backed es i (.authenticating apiKey)
  | listing (hauth : Backed es i (.authenticating apiKey))
    (h : env.Responded es i (authRequest apiKey) answer)
    (htoken : env.readToken answer = .ok token) : Backed es i (.listing token)
  | searching (hlist : Backed es i (.listing token))
    (h : env.Responded es i (accountNumbersRequest token) answer)
    (hnumbers : env.readNumbers answer = .ok numbers) (hrest : number :: rest <:+ numbers) :
    Backed es i (.searching token number rest)

variable {env}

theorem OctopusProvider.Responded.concat (h : env.Responded es i request answer)
    (e : ι × Event octopus) : env.Responded (es ++ [e]) i request answer := by
  obtain ⟨before, view, after, w, rfl, hrun, hsend⟩ := h
  exact ⟨before, view, after ++ [e], w, by simp, hrun, hsend⟩

theorem OctopusProvider.Backed.concat (h : env.Backed es i stage) (e : ι × Event octopus) :
    env.Backed (es ++ [e]) i stage := by
  induction h with
  | authenticating h hkey => exact .authenticating (List.mem_append_left _ h) hkey
  | listing _ h htoken ih => exact .listing ih (h.concat e) htoken
  | searching _ h hnumbers hrest ih => exact .searching ih (h.concat e) hnumbers hrest

omit [DecidableEq ι] in
theorem OctopusProvider.sends_of_resolving {s : FetchState ι}
    (h : s.phase i = .resolving tz stage) : (env.state s).Sends i stage.request := by
  have hcall := env.state_call h
  cases stage with
  | _ => exact ⟨_, hcall⟩

/-- What lets a call go on to its next stage is observed in an event, which backs that. -/
theorem OctopusProvider.Backed.after {s : FetchState ι}
    (hrun : run env.step es (env.state .initial) = some (env.state s))
    (hback : ∀ tz stage, s.phase i = .resolving tz stage → env.Backed es i stage)
    (h : Stage.After (s.phase i) answer stage) (hobs : env.observe (s.phase i) e = some answer) :
    env.Backed (es ++ [(i, e)]) i stage := by
  have hresponded {tz stage view answer} (hphase : s.phase i = .resolving tz stage)
      (he : e = .answered view answer) :
      env.Responded (es ++ [(i, e)]) i stage.request answer :=
    ⟨es, view, [], _, by rw [he], hrun, env.sends_of_resolving hphase⟩
  generalize hphase : s.phase i = p at h hobs hback hresponded
  cases h with
  | lock =>
    cases e with
    | granted view =>
      injection hobs with hobs
      injection hobs with hkey
      exact .authenticating (List.mem_append_right _ (List.mem_singleton_self _)) hkey
    | _ => cases hobs
  | token =>
    cases e with
    | answered view answer =>
      injection hobs with hobs
      injection hobs with htoken
      exact .listing ((hback _ _ rfl).concat _) (hresponded rfl rfl) htoken
    | _ => cases hobs
  | accounts =>
    cases e with
    | answered view answer =>
      injection hobs with hobs
      injection hobs with hnumbers
      exact .searching ((hback _ _ rfl).concat _) (hresponded rfl rfl) hnumbers (List.suffix_refl _)
    | _ => cases hobs
  | account =>
    cases (hback _ _ rfl).concat (i, e) with
    | searching hlist h hnumbers hrest =>
      exact .searching hlist h hnumbers ((List.suffix_cons _ _).trans hrest)

omit [DecidableEq ι] in
/-- A call awaits the answer to the request of its stage, or to that for its rates. -/
theorem OctopusProvider.sends_cases {s : FetchState ι}
    (h : (env.state s).Sends i request) :
    (∃ tz stage, s.phase i = .resolving tz stage ∧ request = stage.request) ∨
    ∃ tz auth rates, s.phase i = .requesting tz auth rates ∧ request = rates.http := by
  obtain ⟨next, hcall⟩ := h
  change env.call i (s.phase i) = _ at hcall
  cases hphase : s.phase i with
  | resolving tz stage =>
    rw [hphase] at hcall
    refine .inl ⟨tz, stage, rfl, ?_⟩
    cases stage with
    | _ =>
      injection hcall with hcall
      injection hcall with hop
      injection hop with hrequest
      exact hrequest.symm
  | requesting tz auth rates =>
    rw [hphase] at hcall
    injection hcall with hcall
    injection hcall with hop
    injection hop with hrequest
    exact .inr ⟨tz, auth, rates, rfl, hrequest.symm⟩
  | returned result =>
    rw [hphase] at hcall
    cases result with
    | _ => cases hcall
  | _ =>
    rw [hphase] at hcall
    cases hcall

end Requests

section Calls
variable {ι : Type} [DecidableEq ι]

theorem FetchState.eq_of_put {s : FetchState ι} (h : (s.put i p).phase i = q) : p = q :=
  (s.put_phase_self i p).symm.trans h

theorem FetchEnv.accept_ne_resolving (env : FetchEnv ι) (s : FetchState ι) :
    (env.accept i tz token tariffCode s).phase i ≠ .resolving tz' stage := by
  rw [FetchEnv.accept]
  split
  · intro h
    cases FetchState.eq_of_put h
  · intro h
    exact env.request_ne_resolving _ _ _ (FetchState.eq_of_put h)

theorem FetchEnv.after_lockAuth {env : FetchEnv ι} (h : env.lockAuth i tz s answer = some s')
    (hphase : s'.phase i = .resolving tz' stage) : Stage.After (.locking tz) answer stage := by
  rw [FetchEnv.lockAuth.eq_def] at h
  split at h
  · split at h
    · cases h
    · split at h
      · cases h
        exact absurd (FetchState.eq_of_put hphase) (env.request_ne_resolving _ _ _)
      · cases h
        cases FetchState.eq_of_put hphase
      · cases h
        cases FetchState.eq_of_put hphase
        exact .lock
  · cases h
    cases FetchState.eq_of_put hphase
  · cases h

theorem FetchEnv.after_resolveAuth {env : FetchEnv ι}
    (h : env.resolveAuth i tz s stage answer = some s')
    (hphase : s'.phase i = .resolving tz' stage') :
    Stage.After (.resolving tz stage) answer stage' := by
  rw [FetchEnv.resolveAuth.eq_def] at h
  split at h
  · cases h
    cases FetchState.eq_of_put hphase
  · cases h
    cases FetchState.eq_of_put hphase
    exact .token
  · cases h
    cases FetchState.eq_of_put hphase
  · cases h
    cases FetchState.eq_of_put hphase
  · cases h
    cases FetchState.eq_of_put hphase
    exact .accounts
  · cases h
    cases FetchState.eq_of_put hphase
  · split at h
    · cases h
      exact absurd hphase (env.accept_ne_resolving _)
    · cases h
      cases FetchState.eq_of_put hphase
    · cases h
      cases FetchState.eq_of_put hphase
      exact .account
  · cases h
    cases FetchState.eq_of_put hphase
  · cases h

theorem after_of_step {env : FetchEnv ι} (h : Gridshift.step env (i, answer) s = some s')
    (hphase : s'.phase i = .resolving tz stage) : Stage.After (s.phase i) answer stage := by
  simp only [Gridshift.step] at h
  split at h
  · rename_i hidle
    rw [FetchEnv.start.eq_def] at h
    split at h
    · split at h
      · cases h
        cases FetchState.eq_of_put hphase
      · cases h
        cases FetchState.eq_of_put hphase
    · cases h
  · rename_i hlocking
    rw [hlocking]
    exact env.after_lockAuth h hphase
  · rename_i hresolving
    rw [hresolving]
    exact env.after_resolveAuth h hphase
  · rw [FetchEnv.receive.eq_def] at h
    split at h
    · cases h
      cases FetchState.eq_of_put hphase
    · cases h
      cases FetchState.eq_of_put hphase
    · cases h
      cases FetchState.eq_of_put hphase
    · cases h
      cases FetchState.eq_of_put hphase
    · cases h
  · rw [FetchState.invalidate.eq_def] at h
    split at h
    · split at h
      · cases h
      · cases h
        cases FetchState.eq_of_put hphase
    · cases h
      cases FetchState.eq_of_put hphase
    · cases h
  · cases h

variable (env : OctopusProvider ι)

/-- The states that the machine of the awaits is in as the programs of the calls run. -/
structure OctopusProvider.Reaches (es : List (ι × Event octopus))
    (w : State octopus ι (List PricedWindow)) (s : FetchState ι) : Prop where
  state : w = env.state s
  cache : CacheInvariant s
  backed : ∀ i tz stage, s.phase i = .resolving tz stage → env.Backed es i stage

theorem OctopusProvider.exists_reaches {env : OctopusProvider ι}
    (h : run env.step es (env.state .initial) = some w) : ∃ s, env.Reaches es w s := by
  refine run_induction (P := fun es w => ∃ s, env.Reaches es w s) h ⟨.initial, rfl, .initial, ?_⟩ ?_
  · intro i tz stage hphase
    cases hphase
  · rintro es ⟨i, e⟩ _ w hrun ⟨s, rfl, hcache, hbacked⟩ hstep
    rw [env.step_state hcache i e] at hstep
    obtain ⟨s', hs', rfl⟩ := Option.map_eq_some_iff.1 hstep
    obtain ⟨answer, hobs, hstep'⟩ := Option.bind_eq_some_iff.1 hs'
    refine ⟨s', rfl, hcache.moves (moves_of_step hstep'), ?_⟩
    intro j tz stage hphase
    by_cases hj : j = i
    · subst hj
      exact .after hrun (hbacked j) (after_of_step hstep' hphase) hobs
    · rw [step_phase_of_ne hstep' hj] at hphase
      exact (hbacked j tz stage hphase).concat _

/-- In every order of their events, a call that awaits an answer to a request with a key or a token
in it has the lock, with nothing in the cache, and was given these in that same call: so there is no
other such request on its way. The requests for rates have neither, and are for the product of a
framed tariff. -/
theorem requests_backed (es : List (ι × Event octopus)) (w : State octopus ι (List PricedWindow))
    (h : run env.step es (env.state .initial) = some w) (i : ι) (request : HttpRequest)
    (hsend : w.Sends i request) :
    (request.Credentialed → w.holder = some i ∧ w.value = none ∧
      (∃ stage, request = stage.request ∧ env.Backed es i stage) ∧
      ∀ j request', w.Sends j request' → request'.Credentialed → j = i) ∧
    (¬ request.Credentialed → request.method = .get ∧
      ∃ tariffCode product, Framed tariffCode product ∧
        request.url = ratesUrl product tariffCode) := by
  obtain ⟨s, rfl, hcache, hbacked⟩ := env.exists_reaches h
  have hheld {j : ι} {request' : HttpRequest} (hsend' : (env.state s).Sends j request')
      (hcred : request'.Credentialed) :
      s.lock = some j ∧ ∃ stage, request' = stage.request ∧ env.Backed es j stage := by
    rcases env.sends_cases hsend' with ⟨tz, stage, hphase, rfl⟩ | ⟨tz, auth, rates, -, rfl⟩
    · exact ⟨(hcache.holder j).1 (by rw [hphase]; rfl), stage, rfl, hbacked j tz stage hphase⟩
    · exact absurd hcred rates.not_credentialed
  constructor
  · intro hcred
    obtain ⟨hlock, hstage⟩ := hheld hsend hcred
    refine ⟨hlock, congrArg (Option.map _) (hcache.held i hlock), hstage, ?_⟩
    intro j request' hsend' hcred'
    exact Option.some.inj ((hheld hsend' hcred').1.symm.trans hlock)
  · intro hcred
    rcases env.sends_cases hsend with ⟨tz, stage, -, rfl⟩ | ⟨tz, auth, rates, hphase, rfl⟩
    · exact absurd stage.credentialed hcred
    · have hsound := hcache.sound i
      rw [hphase] at hsound
      obtain ⟨product, hframed, hurl⟩ := hsound
      exact ⟨rfl, auth.tariffCode, product, hframed, hurl⟩

end Calls

section Sample

/-- Two calls are made, and one exchanges the key for a token. -/
def keyExchange : List (Nat × Event octopus) :=
  [(0, .called utcView), (1, .called utcView), (0, .granted utcView),
    (0, .answered utcView (.ok (served (tokenText "jwt-1"))))]

theorem requests_backed_exchange :
    ∃ w, run utcProvider.step keyExchange (utcProvider.state .initial) = some w ∧
      w.Sends 0 (accountNumbersRequest "jwt-1") ∧ w.holder = some 0 ∧ w.value = none ∧
      ∃ stage, accountNumbersRequest "jwt-1" = stage.request ∧
        utcProvider.Backed keyExchange 0 stage := by
  obtain ⟨hlock, hempty, hbacked, -⟩ :=
    (requests_backed utcProvider keyExchange _ rfl 0 (accountNumbersRequest "jwt-1") ⟨_, rfl⟩).1
      (Stage.credentialed (.listing "jwt-1"))
  exact ⟨_, rfl, ⟨_, rfl⟩, hlock, hempty, hbacked⟩

end Sample

end Gridshift
