import Gridshift.FetchProvenance
import Gridshift.OctopusRequests

namespace Gridshift
open Async Machine Simulation
set_option autoImplicit true

variable {ι : Type} [DecidableEq ι] {env : OctopusProvider ι}

omit [DecidableEq ι] in
/-- A call whose program ended with a result has returned that. -/
theorem OctopusProvider.returned_of_call (h : env.call i p = .running (fetched result)) :
    p = .returned result := by
  cases p with
  | returned result' =>
    injection h with h
    cases result with
    | error e =>
      cases result' with
      | error e' =>
        injection h with h
        injection h with h
        rw [h]
      | ok windows => cases h
    | ok windows =>
      cases result' with
      | error e => cases h
      | ok windows' =>
        injection h with h
        rw [h]
  | resolving tz stage =>
    cases stage with
    | _ => cases result with
      | _ => cases h
  | panicked cause =>
    cases result with
    | error e =>
      injection h with h
      injection h with h
      cases h
    | ok windows => cases h
  | idle | locking | requesting | rejected | dropped =>
    cases result with
    | _ => cases h

omit [DecidableEq ι] in
/-- Rates are observed in the response to the request for them. -/
theorem OctopusProvider.observe_rates
    (h : env.observe (.requesting tz auth request) e = some (.rates (.ok rates))) :
    ∃ view response, e = .answered view (.ok response) ∧
      env.readRates response = .ok rates := by
  cases e with
  | answered view answer =>
    cases answer with
    | error e => cases h
    | ok response =>
      rw [OctopusProvider.observe] at h
      split at h
      · cases h
      · injection h with h
        injection h with h
        exact ⟨view, response, rfl, h⟩
  | _ => cases h

theorem OctopusProvider.responded_of_answered
    (hobs : observed (Gridshift.step env.toFetchEnv) env.observes es .initial = some answers)
    (h : Answered env.toFetchEnv answers i tz auth request rates) :
    ∃ response, env.Responded es i request.http (.ok response) ∧
      env.readRates response = .ok rates := by
  obtain ⟨before, after, t, rfl, hrun, hphase⟩ := h
  obtain ⟨es', ⟨j, e⟩, es'', u, rfl, hds, hrun', hobs'⟩ := observed_split hobs
  cases hrun.symm.trans hrun'
  obtain ⟨answer, he, hpair⟩ := Option.map_eq_some_iff.1 hobs'
  cases hpair
  rw [hphase] at he
  obtain ⟨view, response, rfl, hrates⟩ := env.observe_rates he
  refine ⟨response, ⟨es', view, es'', env.state t, rfl, ?_, ?_⟩, hrates⟩
  · exact env.run_iff.2 ⟨before, t, hds, hrun, rfl⟩
  · exact ⟨_, env.state_call hphase⟩

/-- Whatever else goes on, a call ends with windows only as those of the rates in a response to its own
request for the period of its date, all with finite prices, and with the error that the prices are not
yet published only when that response had none. -/
theorem fetched_from_response (env : OctopusProvider ι) (es : List (ι × Event octopus))
    (w : State octopus ι (List PricedWindow)) (h : run env.step es (env.state .initial) = some w)
    (i : ι) (result : Except ProviderError (List PricedWindow))
    (hend : w.call i = .running (fetched result)) :
    (∃ message, result = .error (.other message)) ∨
    ∃ tz tariffCode product next request response rates,
      env.tzdb (env.input i).timezone = some tz ∧ Framed tariffCode product ∧
      env.succOpt (env.input i).date = some next ∧
      request = RatesRequest.http {
        url := ratesUrl product tariffCode
        periodFrom := env.formatBoundary (midnight tz (env.input i).date)
        periodTo := env.formatBoundary (midnight tz next) } ∧
      env.Responded es i request (.ok response) ∧ env.readRates response = .ok rates ∧
      (rates = [] ∧ result = .error (.notYetPublished (env.input i).date) ∨
        rates ≠ [] ∧ (∀ r ∈ rates, r.valueIncVat.isFinite = true) ∧
          result = .ok ((sortRates rates).map (rateWindow tz))) := by
  obtain ⟨answers, s, hobs, hrun, rfl⟩ := env.run_iff.1 h
  rcases fetched_or_failed hrun (env.returned_of_call hend) with hother |
    ⟨tz, auth, product, next, rates, htz, hframed, hnext, hans, hresult⟩
  · exact .inl hother
  · obtain ⟨response, hresponded, hrates⟩ := env.responded_of_answered hobs hans
    exact .inr ⟨tz, auth.tariffCode, product, next, _, response, rates, htz, hframed, hnext, rfl,
      hresponded, hrates, hresult⟩

section Sample

/-- A call finds its tariff in its only account, and is told one rate. -/
def oneRate : List (Nat × Event octopus) :=
  [(0, .called utcView), (0, .granted utcView),
    (0, .answered utcView (.ok (served (tokenText "jwt-1")))),
    (0, .answered utcView (.ok (served accountsText))),
    (0, .answered utcView (.ok (served accountText))),
    (0, .answered utcView (.ok (served ratesText)))]

theorem utcProvider_readRates :
    utcProvider.readRates (served ratesText) = .ok [⟨.finite 12, 1704067200⟩] := by
  change (readAs [(ratesText, _)] (served ratesText) >>= _) = _
  rw [readAs_served]
  rfl

theorem oneRate_observed :
    observed (Gridshift.step utcProvider.toFetchEnv) utcProvider.observes oneRate .initial =
      some (login 0 "jwt-1" ++ [(0, .rates (.ok [⟨.finite 12, 1704067200⟩]))]) := by
  have hnumbers := congrArg (fun read => some ((0 : Nat), Answer.accounts read))
    utcProvider_readNumbers
  have haccount := congrArg (fun read => some ((0 : Nat), Answer.account 1704100000 read))
    utcProvider_readAccount
  have hrates := congrArg (fun read => some ((0 : Nat), Answer.rates read)) utcProvider_readRates
  refine observed_cons_iff.2 ⟨_, _, _, rfl, rfl, ?_, rfl⟩
  refine observed_cons_iff.2 ⟨_, _, _, rfl, rfl, ?_, rfl⟩
  refine observed_cons_iff.2 ⟨_, _, _, rfl, rfl, ?_, rfl⟩
  refine observed_cons_iff.2 ⟨_, _, _, hnumbers, rfl, ?_, rfl⟩
  refine observed_cons_iff.2 ⟨_, _, _, haccount, rfl, ?_, rfl⟩
  exact observed_cons_iff.2 ⟨_, _, _, hrates, rfl, rfl, rfl⟩

theorem fetched_from_response_one :
    ∃ w request response rates, run utcProvider.step oneRate (utcProvider.state .initial) = some w ∧
      w.call 0 = .running (fetched (.ok [⟨19723, 0, 0, 12⟩])) ∧
      utcProvider.Responded oneRate 0 request (.ok response) ∧
      utcProvider.readRates response = .ok rates ∧ rates ≠ [] := by
  have hrun := utcProvider.run_iff.2 ⟨_, _, oneRate_observed, rfl, rfl⟩
  rcases fetched_from_response utcProvider oneRate _ hrun 0 (.ok [⟨19723, 0, 0, 12⟩]) rfl with
    ⟨message, hother⟩ | ⟨_, _, _, _, request, response, rates, -, -, -, -, hresponded, hrates, hend⟩
  · cases hother
  · rcases hend with ⟨-, hnone⟩ | ⟨hsome, -, -⟩
    · cases hnone
    · exact ⟨_, request, response, rates, hrun, rfl, hresponded, hrates, hsome⟩

end Sample

end Gridshift
