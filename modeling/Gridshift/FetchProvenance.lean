import Gridshift.TariffCache

namespace Gridshift
open Machine
set_option autoImplicit true

/-- With a pair, a call panics before its request, or asks for the unit rates of the pair's product
over the period of its date. -/
theorem FetchEnv.request_eq (env : FetchEnv ι) (i : ι) (tz : Tz) (auth : Auth) :
    (∃ cause, env.request i tz auth = .panicked cause) ∨
    ∃ product next, productCode auth.tariffCode = some product ∧
      env.succOpt (env.input i).date = some next ∧
      env.request i tz auth = .requesting tz auth {
        url := ratesUrl product auth.tariffCode
        periodFrom := env.formatBoundary (midnight tz (env.input i).date)
        periodTo := env.formatBoundary (midnight tz next) } := by
  rw [FetchEnv.request]
  cases productCode auth.tariffCode with
  | none => exact .inl ⟨_, rfl⟩
  | some product =>
    cases env.succOpt (env.input i).date with
    | none => exact .inl ⟨_, rfl⟩
    | some next => exact .inr ⟨product, next, rfl, rfl, rfl⟩

section Calls
variable {ι : Type} [DecidableEq ι]

/-- The API answered the request of a call with these rates. -/
def Answered (env : FetchEnv ι) (es : List (ι × Answer)) (i : ι) (tz : Tz) (auth : Auth)
    (request : RatesRequest) (rates : List OctopusRate) : Prop :=
  ∃ before after t, es = before ++ (i, .rates (.ok rates)) :: after ∧
    run (step env) before .initial = some t ∧ t.phase i = .requesting tz auth request

theorem Answered.concat {env : FetchEnv ι} (h : Answered env es i tz auth request rates)
    (e : ι × Answer) : Answered env (es ++ [e]) i tz auth request rates := by
  obtain ⟨before, after, t, rfl, h⟩ := h
  exact ⟨before, after ++ [e], t, by rw [List.append_assoc, List.cons_append], h⟩

/-- What a phase owes to the call's input, and to what it was answered. -/
def FetchEnv.Follows (env : FetchEnv ι) (es : List (ι × Answer)) (i : ι) : Phase → Prop
  | .locking tz => env.tzdb (env.input i).timezone = some tz
  | .resolving tz _ => env.tzdb (env.input i).timezone = some tz
  | .requesting tz auth request => env.tzdb (env.input i).timezone = some tz ∧
      env.request i tz auth = .requesting tz auth request
  | .returned result => (∃ message, result = .error (.other message)) ∨
      ∃ tz auth request rates, env.tzdb (env.input i).timezone = some tz ∧
        env.request i tz auth = .requesting tz auth request ∧
        Answered env es i tz auth request rates ∧
        result = pricedWindowsOf env.formatRat env.formatTime (env.input i).date tz rates
  | _ => True

theorem FetchEnv.Follows.concat {env : FetchEnv ι} (h : env.Follows es i p) (e : ι × Answer) :
    env.Follows (es ++ [e]) i p := by
  cases p with
  | returned result =>
    rcases h with hfailed | ⟨tz, auth, request, rates, htz, hreq, hans, hresult⟩
    · exact .inl hfailed
    · exact .inr ⟨tz, auth, request, rates, htz, hreq, hans.concat e, hresult⟩
  | _ => exact h

theorem FetchEnv.follows_failed (env : FetchEnv ι) (es : List (ι × Answer)) (i : ι)
    (message : String) : env.Follows es i (.failed message) := .inl ⟨message, rfl⟩

theorem FetchEnv.follows_request {env : FetchEnv ι}
    (htz : env.tzdb (env.input i).timezone = some tz) : env.Follows es i (env.request i tz auth) := by
  rcases env.request_eq i tz auth with ⟨cause, h⟩ | ⟨product, next, -, -, h⟩
  · rw [h]
    trivial
  · rw [h]
    exact ⟨htz, h⟩

theorem FetchEnv.follows_put {env : FetchEnv ι} {s : FetchState ι} (hp : env.Follows es i p) :
    env.Follows es i ((s.put i p).phase i) := by
  rw [FetchState.put_phase_self]
  exact hp

theorem FetchEnv.follows_accept {env : FetchEnv ι}
    (htz : env.tzdb (env.input i).timezone = some tz) :
    env.Follows es i ((env.accept i tz token tariffCode s).phase i) := by
  rw [FetchEnv.accept]
  split
  · exact env.follows_put (env.follows_failed es i _)
  · exact env.follows_put (env.follows_request htz)

theorem FetchEnv.follows_start {env : FetchEnv ι} (h : env.start i s answer = some s') :
    env.Follows es i (s'.phase i) := by
  rw [FetchEnv.start.eq_def] at h
  split at h
  · split at h
    · cases h
      exact env.follows_put (env.follows_failed es i _)
    · rename_i htz
      cases h
      exact env.follows_put (p := .locking _) htz
  · cases h

theorem FetchEnv.follows_lockAuth {env : FetchEnv ι}
    (htz : env.tzdb (env.input i).timezone = some tz)
    (h : env.lockAuth i tz s answer = some s') : env.Follows es i (s'.phase i) := by
  rw [FetchEnv.lockAuth.eq_def] at h
  split at h
  · split at h
    · cases h
    · split at h
      · cases h
        exact env.follows_put (env.follows_request htz)
      · cases h
        exact env.follows_put (env.follows_failed es i _)
      · cases h
        exact env.follows_put (p := .resolving _ _) htz
  · cases h
    exact env.follows_put (p := .dropped) trivial
  · cases h

theorem FetchEnv.follows_resolveAuth {env : FetchEnv ι}
    (htz : env.tzdb (env.input i).timezone = some tz)
    (h : env.resolveAuth i tz s stage answer = some s') : env.Follows es i (s'.phase i) := by
  rw [FetchEnv.resolveAuth.eq_def] at h
  split at h
  · cases h
    exact env.follows_put (env.follows_failed es i _)
  · cases h
    exact env.follows_put (p := .resolving _ _) htz
  · cases h
    exact env.follows_put (env.follows_failed es i _)
  · cases h
    exact env.follows_put (env.follows_failed es i _)
  · cases h
    exact env.follows_put (p := .resolving _ _) htz
  · cases h
    exact env.follows_put (env.follows_failed es i _)
  · split at h
    · cases h
      exact env.follows_accept htz
    · cases h
      exact env.follows_put (env.follows_failed es i _)
    · cases h
      exact env.follows_put (p := .resolving _ _) htz
  · cases h
    exact env.follows_put (p := .dropped) trivial
  · cases h

theorem FetchEnv.follows_receive {env : FetchEnv ι} (hrun : run (step env) es .initial = some s)
    (hphase : s.phase i = .requesting tz auth req)
    (htz : env.tzdb (env.input i).timezone = some tz)
    (hreq : env.request i tz auth = .requesting tz auth req)
    (h : env.receive i tz auth s answer = some s') :
    env.Follows (es ++ [(i, answer)]) i (s'.phase i) := by
  rw [FetchEnv.receive.eq_def] at h
  split at h
  · cases h
    exact env.follows_put (p := .rejected _) trivial
  · cases h
    exact env.follows_put (env.follows_failed _ i _)
  · cases h
    apply env.follows_put
    exact .inr ⟨tz, auth, req, _, htz, hreq, ⟨es, [], s, rfl, hrun, hphase⟩, rfl⟩
  · cases h
    exact env.follows_put (p := .dropped) trivial
  · cases h

theorem FetchEnv.follows_invalidate {env : FetchEnv ι} {s s' : FetchState ι}
    (h : s.invalidate i answer = some s') :
    env.Follows es i (s'.phase i) := by
  rw [FetchState.invalidate.eq_def] at h
  split at h
  · split at h
    · cases h
    · cases h
      exact env.follows_put (env.follows_failed es i _)
  · cases h
    exact env.follows_put (p := .dropped) trivial
  · cases h

theorem FetchEnv.follows_step {env : FetchEnv ι} (hrun : run (step env) es .initial = some s)
    (hs : env.Follows es i (s.phase i)) (h : step env (i, answer) s = some s') :
    env.Follows (es ++ [(i, answer)]) i (s'.phase i) := by
  simp only [step] at h
  split at h
  · exact env.follows_start h
  · rename_i hphase
    rw [hphase] at hs
    exact env.follows_lockAuth hs h
  · rename_i hphase
    rw [hphase] at hs
    exact env.follows_resolveAuth hs h
  · rename_i hphase
    rw [hphase] at hs
    exact env.follows_receive hrun hphase hs.1 hs.2 h
  · exact env.follows_invalidate h
  · cases h

theorem follows_of_run {env : FetchEnv ι} (h : run (step env) es .initial = some s) (i : ι) :
    env.Follows es i (s.phase i) := by
  apply run_induction h
  · trivial
  · intro es e t u hrun ht hstep
    by_cases hi : i = e.1
    · subst hi
      exact env.follows_step hrun ht hstep
    · rw [step_phase_of_ne hstep hi]
      exact ht.concat e

/-- What a call returns for rates that it was answered: that there are none yet, that one has no
finite price, or the windows of all of them. -/
theorem pricedWindowsOf_cases (formatRat : Rat → String) (formatTime : Int → String)
    (date : NaiveDate) (tz : Tz) (rates : List OctopusRate) :
    (∃ message, pricedWindowsOf formatRat formatTime date tz rates = .error (.other message)) ∨
    rates = [] ∧ pricedWindowsOf formatRat formatTime date tz rates =
      .error (.notYetPublished date) ∨
    rates ≠ [] ∧ (∀ r ∈ rates, r.valueIncVat.isFinite = true) ∧
      pricedWindowsOf formatRat formatTime date tz rates =
        .ok ((sortRates rates).map (rateWindow tz)) := by
  by_cases hnil : rates = []
  · exact .inr (.inl ⟨hnil, by rw [hnil]; rfl⟩)
  · by_cases hfin : ∀ r ∈ rates, r.valueIncVat.isFinite = true
    · exact .inr (.inr ⟨hnil, hfin, pricedWindowsOf_ok hnil hfin⟩)
    · left
      rw [pricedWindowsOf, if_neg (by simpa using hnil)]
      cases hfind : rates.find? fun r => !r.valueIncVat.isFinite with
      | some r => exact ⟨_, rfl⟩
      | none =>
        refine absurd (fun r hr => ?_) hfin
        have hr := List.find?_eq_none.1 hfind r hr
        rwa [Bool.not_eq_true', Bool.not_eq_false] at hr

/-- The request that a call sends is for the product of a framed tariff. -/
theorem framed_of_answered {env : FetchEnv ι} (hans : Answered env es i tz auth req rates)
    (hreq : env.request i tz auth = .requesting tz auth req) :
    ∃ product next, Framed auth.tariffCode product ∧ env.succOpt (env.input i).date = some next ∧
      req = {
        url := ratesUrl product auth.tariffCode
        periodFrom := env.formatBoundary (midnight tz (env.input i).date)
        periodTo := env.formatBoundary (midnight tz next) } := by
  obtain ⟨_, _, t, -, hbefore, hphase⟩ := hans
  have hsound := (cacheInvariant_of_run hbefore).sound i
  rw [hphase] at hsound
  obtain ⟨product, hframed, -⟩ := hsound
  rcases env.request_eq i tz auth with ⟨cause, hpanic⟩ | ⟨product', next, hcode, hnext, hsent⟩
  · rw [hpanic] at hreq
    cases hreq
  · cases hcode.symm.trans (productCode_of_framed hframed)
    cases hreq.symm.trans hsent
    exact ⟨product, next, hframed, hnext, rfl⟩

/-- A call returns windows only as those of the rates that answered its own request, all with finite
prices, and that the prices are not yet published only when that answer had none. -/
theorem fetched_or_failed {env : FetchEnv ι} (h : run (step env) es .initial = some s)
    (hreturned : s.phase i = .returned result) :
    (∃ message, result = .error (.other message)) ∨
    ∃ tz auth product next rates, env.tzdb (env.input i).timezone = some tz ∧
      Framed auth.tariffCode product ∧ env.succOpt (env.input i).date = some next ∧
      Answered env es i tz auth {
        url := ratesUrl product auth.tariffCode
        periodFrom := env.formatBoundary (midnight tz (env.input i).date)
        periodTo := env.formatBoundary (midnight tz next) } rates ∧
      (rates = [] ∧ result = .error (.notYetPublished (env.input i).date) ∨
        rates ≠ [] ∧ (∀ r ∈ rates, r.valueIncVat.isFinite = true) ∧
          result = .ok ((sortRates rates).map (rateWindow tz))) := by
  have hfollows := follows_of_run h i
  rw [hreturned] at hfollows
  rcases hfollows with hother | ⟨tz, auth, req, rates, htz, hreq, hans, rfl⟩
  · exact .inl hother
  · rcases pricedWindowsOf_cases env.formatRat env.formatTime (env.input i).date tz rates with
      hother | hkept
    · exact .inl hother
    · obtain ⟨product, next, hframed, hnext, rfl⟩ := framed_of_answered hans hreq
      exact .inr ⟨tz, auth, product, next, rates, htz, hframed, hnext, hans, hkept⟩

end Calls

end Gridshift
