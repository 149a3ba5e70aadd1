import Gridshift.AuthCache

namespace Gridshift
open Machine
set_option autoImplicit true

/-- A request names the product that frames in its tariff code; no call panics over a slice. -/
def Phase.Sound : Phase → Prop
  | .requesting _ auth req =>
    ∃ product, Framed auth.tariffCode product ∧ req.url = ratesUrl product auth.tariffCode
  | .panicked panic => panic = .dateOverflow
  | _ => True

theorem Phase.Quiet.sound (h : Phase.Quiet p) : p.Sound := by
  cases h with
  | _ => trivial

/-- With a framed code the request goes out, unless the calendar ends. -/
theorem FetchEnv.request_of_framed (env : FetchEnv ι) (i : ι) (tz : Tz)
    (h : Framed auth.tariffCode product) (hnext : env.succOpt (env.input i).date = some next) :
    env.request i tz auth = .requesting tz auth {
      url := ratesUrl product auth.tariffCode
      periodFrom := env.formatBoundary (midnight tz (env.input i).date)
      periodTo := env.formatBoundary (midnight tz next) } := by
  rw [FetchEnv.request, productCode_of_framed h, hnext]

theorem FetchEnv.request_sound (env : FetchEnv ι) (i : ι) (tz : Tz)
    (h : ∃ product, Framed auth.tariffCode product) : (env.request i tz auth).Sound := by
  obtain ⟨product, h⟩ := h
  cases hnext : env.succOpt (env.input i).date with
  | none =>
    rw [FetchEnv.request, productCode_of_framed h, hnext]
    rfl
  | some next =>
    rw [env.request_of_framed i tz h hnext]
    exact ⟨product, h, rfl⟩

structure CacheInvariant (s : FetchState ι) : Prop where
  holder : ∀ j, (s.phase j).holds = true ↔ s.lock = some j
  held : ∀ j, s.lock = some j → s.cache = none
  framed : ∀ a ∈ s.cache, ∃ product, Framed a.tariffCode product
  sound : ∀ j, (s.phase j).Sound

theorem CacheInvariant.initial : CacheInvariant (.initial : FetchState ι) where
  holder j := by simp only [FetchState.initial, Phase.holds, Bool.false_eq_true, reduceCtorEq]
  held _ _ := rfl
  framed a ha := absurd ha (Option.not_mem_none a)
  sound _ := trivial

variable {ι : Type} [DecidableEq ι]

theorem FetchState.forall_put {s : FetchState ι} {Q : ι → Phase → Prop} (hi : Q i p)
    (hs : ∀ j, j ≠ i → Q j (s.phase j)) (j : ι) : Q j ((s.put i p).phase j) := by
  by_cases hj : j = i
  · rw [hj, FetchState.put_phase_self]
    exact hi
  · rw [FetchState.put_phase_of_ne s p hj]
    exact hs j hj

theorem CacheInvariant.put_sound (hs : CacheInvariant s) (hp : p.Sound) (i j : ι) :
    ((s.put i p).phase j).Sound :=
  FetchState.forall_put (Q := fun _ p => p.Sound) hp (fun j _ => hs.sound j) j

theorem CacheInvariant.put_holder (hs : CacheInvariant s) {i : ι}
    (hp : p.holds = (s.phase i).holds) (j : ι) :
    ((s.put i p).phase j).holds = true ↔ s.lock = some j := by
  apply FetchState.forall_put (Q := fun j p => p.holds = true ↔ s.lock = some j)
  · rw [hp]
    exact hs.holder i
  · exact fun j _ => hs.holder j

/-- Once its holder lets go of the lock, nobody holds it. -/
theorem CacheInvariant.release_holder (hs : CacheInvariant s) {i : ι}
    (hi : (s.phase i).holds = true) (hp : p.holds = false) (j : ι) :
    ((s.put i p).phase j).holds = true ↔ none = some j := by
  apply FetchState.forall_put (Q := fun j p => p.holds = true ↔ none = some j)
  · simp only [hp, Bool.false_eq_true, reduceCtorEq]
  · intro j hj
    rw [hs.holder j, (hs.holder i).1 hi]
    simp only [Option.some.injEq, reduceCtorEq, iff_false]
    exact hj.symm

theorem CacheInvariant.hold_holder (hs : CacheInvariant s) {i : ι} (hlock : s.lock = none)
    (hp : p.holds = true) (j : ι) :
    ((s.put i p).phase j).holds = true ↔ some i = some j := by
  apply FetchState.forall_put (Q := fun j p => p.holds = true ↔ some i = some j)
  · simp only [hp]
  · intro j hj
    rw [hs.holder j, hlock]
    simp only [Option.some.injEq, reduceCtorEq, false_iff]
    exact hj.symm

theorem CacheInvariant.moves {env : FetchEnv ι} (hs : CacheInvariant s)
    (h : Moves env s i answer s') : CacheInvariant s' := by
  have hnone {P : Prop} (j : ι) (hj : none = some j) : P := by cases hj
  cases h with
  | quiet hfree hp =>
    exact ⟨hs.put_holder (hp.holds_eq.trans hfree.symm), hs.held, hs.framed,
      hs.put_sound hp.sound i⟩
  | reject h =>
    exact ⟨hs.put_holder (by rw [h]; rfl), hs.held, hs.framed,
      hs.put_sound (p := .rejected _) trivial i⟩
  | hit h hlock hcache =>
    exact ⟨hs.put_holder (by rw [h, (env.request_sends _ _ _).holds_eq]; rfl), hs.held, hs.framed,
      hs.put_sound (env.request_sound _ _ (hs.framed _ hcache)) i⟩
  | hold h hlock hcache =>
    exact ⟨hs.hold_holder hlock rfl, fun _ _ => hcache, hs.framed,
      hs.put_sound (p := .resolving _ _) trivial i⟩
  | keep h htoken =>
    exact ⟨hs.put_holder (by rw [h]; rfl), hs.held, hs.framed,
      hs.put_sound (p := .resolving _ _) trivial i⟩
  | release h hp =>
    exact ⟨hs.release_holder h hp.holds_eq, hnone, hs.framed, hs.put_sound hp.sound i⟩
  | fill h hfound hformat =>
    have hframed := (four_le_segments_iff _).1 hformat
    refine ⟨hs.release_holder (by rw [h]; rfl) (env.request_sends _ _ _).holds_eq, hnone, ?_,
      hs.put_sound (env.request_sound _ _ hframed) i⟩
    intro a ha
    cases ha
    exact hframed
  | clear h hlock hp =>
    exact ⟨hs.put_holder (by rw [h, hp.holds_eq]; rfl), fun _ _ => rfl,
      fun a ha => absurd ha (Option.not_mem_none a), hs.put_sound hp.sound i⟩

theorem CacheInvariant.run {env : FetchEnv ι} (hs : CacheInvariant s)
    (h : run (step env) es s = some s') : CacheInvariant s' :=
  run_invariant h hs fun _ _ _ ht hstep => ht.moves (moves_of_step hstep)

theorem cacheInvariant_of_run {env : FetchEnv ι} (h : run (step env) es .initial = some s) :
    CacheInvariant s :=
  CacheInvariant.initial.run h

/-- The account in which a tariff was found, by a call that had been given the token. -/
def FoundWith (env : FetchEnv ι) (es : List (ι × Answer)) (a : Auth) : Prop :=
  ∃ before i now account after t tz number rest,
    es = before ++ (i, .account now (.ok account)) :: after ∧
    (i, .token (.ok a.token)) ∈ before ∧
    run (step env) before .initial = some t ∧
    t.phase i = .resolving tz (.searching a.token number rest) ∧
    findAgileTariff now account = some a.tariffCode

theorem FoundWith.concat {env : FetchEnv ι} (h : FoundWith env es a) (e : ι × Answer) :
    FoundWith env (es ++ [e]) a := by
  obtain ⟨before, i, now, account, after, t, tz, number, rest, rfl, h⟩ := h
  refine ⟨before, i, now, account, after ++ [e], t, tz, number, rest, ?_, h⟩
  rw [List.append_assoc, List.cons_append]

/-- Where the tokens of calls and the pair in the cache come from. -/
structure Provenance (env : FetchEnv ι) (es : List (ι × Answer)) (s : FetchState ι) : Prop where
  token : ∀ j t, (s.phase j).token? = some t → (j, .token (.ok t)) ∈ es
  cached : ∀ a ∈ s.cache, FoundWith env es a

theorem Provenance.put_token {env : FetchEnv ι} (hs : Provenance env es s)
    (hp : ∀ t, p.token? = some t → (i, .token (.ok t)) ∈ es ++ [e]) :
    ∀ j t, ((s.put i p).phase j).token? = some t → (j, .token (.ok t)) ∈ es ++ [e] := by
  apply FetchState.forall_put (Q := fun j p => ∀ t, p.token? = some t →
    (j, .token (.ok t)) ∈ es ++ [e]) hp
  intro j _ t ht
  exact List.mem_append_left _ (hs.token j t ht)

theorem Provenance.moves {env : FetchEnv ι} (hrun : run (step env) es .initial = some s)
    (hs : Provenance env es s) (h : Moves env s i answer s') :
    Provenance env (es ++ [(i, answer)]) s' := by
  have hcached : ∀ a ∈ s.cache, FoundWith env (es ++ [(i, answer)]) a :=
    fun a ha => (hs.cached a ha).concat _
  have hnone {p : Phase} (hp : p.token? = none) (t : String) (ht : p.token? = some t) :
      (i, .token (.ok t)) ∈ es ++ [(i, answer)] := by
    rw [hp] at ht
    cases ht
  cases h with
  | quiet hfree hp => exact ⟨hs.put_token (hnone hp.token?_eq), hcached⟩
  | reject h => exact ⟨hs.put_token (hnone rfl), hcached⟩
  | hit h hlock hcache => exact ⟨hs.put_token (hnone (env.request_sends _ _ _).token?_eq), hcached⟩
  | hold h hlock hcache => exact ⟨hs.put_token (hnone rfl), hcached⟩
  | keep h htoken =>
    refine ⟨hs.put_token ?_, hcached⟩
    intro t ht
    rcases htoken t ht with hstage | rfl
    · exact List.mem_append_left _ (hs.token i t (by rw [h]; exact hstage))
    · exact List.mem_append_right _ (List.mem_singleton.2 rfl)
  | release h hp => exact ⟨hs.put_token (hnone hp.token?_eq), hcached⟩
  | fill h hfound hformat =>
    refine ⟨hs.put_token (hnone (env.request_sends _ _ _).token?_eq), ?_⟩
    intro a ha
    cases ha
    exact ⟨es, i, _, _, [], s, _, _, _, rfl, hs.token i _ (by rw [h]; rfl), hrun, h, hfound⟩
  | clear h hlock hp =>
    exact ⟨hs.put_token (hnone hp.token?_eq), fun a ha => absurd ha (Option.not_mem_none a)⟩

theorem provenance_of_run {env : FetchEnv ι} (h : run (step env) es .initial = some s) :
    Provenance env es s := by
  refine run_induction h ⟨fun j t ht => ?_, fun a ha => absurd ha (Option.not_mem_none a)⟩ ?_
  · cases ht
  · intro es e t u hrun ht hstep
    exact ht.moves hrun (moves_of_step hstep)

/-- Only a call that found a tariff fills the cache, and only one that was refused empties it. -/
theorem Moves.cache_cases {env : FetchEnv ι} (h : Moves env s i answer s') :
    s'.cache = s.cache ∨
    (∃ tz token number rest now account tariffCode,
      s.phase i = .resolving tz (.searching token number rest) ∧
      answer = .account now (.ok account) ∧ findAgileTariff now account = some tariffCode ∧
      s'.cache = some ⟨token, tariffCode, s.generations⟩ ∧
      s'.phase i = env.request i tz ⟨token, tariffCode, s.generations⟩) ∨
    ∃ auth, s.phase i = .rejected auth ∧ answer = .clear ∧ s'.cache = none := by
  cases h with
  | fill h hfound hformat =>
    exact .inr (.inl ⟨_, _, _, _, _, _, _, h, rfl, hfound, rfl, s.put_phase_self _ _⟩)
  | clear h hlock hp => exact .inr (.inr ⟨_, h, rfl, rfl⟩)
  | _ => exact .inl rfl

/-- A call that fails while it holds the lock leaves the cache empty, as it found it. -/
theorem CacheInvariant.cache_of_failed {env : FetchEnv ι} (hs : CacheInvariant s)
    (hholds : (s.phase i).holds = true) (h : Moves env s i answer s')
    (hfailed : (s'.phase i).Failed) : s'.cache = none := by
  have hnone := hs.held i ((hs.holder i).1 hholds)
  rcases h.cache_cases with hsame | ⟨tz, token, _, _, _, _, code, _, _, _, -, hphase⟩ | ⟨_, _, _, h⟩
  · exact hsame.trans hnone
  · rw [hphase] at hfailed
    exact absurd hfailed (env.request_sends _ _ _).not_failed
  · exact h

theorem accept_iff {env : FetchEnv ι} (hs : CacheInvariant s)
    (hphase : s.phase i = .resolving tz (.searching token number rest))
    (hfound : findAgileTariff now account = some tariffCode)
    (h : step env (i, .account now (.ok account)) s = some s') :
    (∃ generation, s'.cache = some ⟨token, tariffCode, generation⟩) ↔
      ∃ product, Framed tariffCode product := by
  have hnone : s.cache = none := hs.held i ((hs.holder i).1 (by rw [hphase]; rfl))
  rw [← four_le_segments_iff]
  simp only [step, hphase, FetchEnv.resolveAuth, hfound, Option.some.injEq] at h
  subst h
  rw [FetchEnv.accept]
  split
  · rename_i hformat
    simp only [FetchState.fail, FetchState.release, FetchState.put_cache, hnone, reduceCtorEq,
      exists_false, false_iff]
    exact Nat.not_le.2 hformat
  · rename_i hformat
    exact ⟨fun _ => Nat.not_lt.1 hformat, fun _ => ⟨_, rfl⟩⟩

theorem Moves.cache_of_lock {env : FetchEnv ι} (h : Moves env s i (.lock apiKey) s') :
    s'.cache = s.cache := by
  rcases h.cache_cases with hsame | ⟨_, _, _, _, _, _, _, _, hanswer, _⟩ | ⟨_, _, hanswer, _⟩
  · exact hsame
  · cases hanswer
  · cases hanswer

theorem cache_of_failed_resolve {env : FetchEnv ι} (h : run (step env) es .initial = some s)
    (hlock : step env (i, .lock apiKey) s = some t) (hheld : (t.phase i).holds = true)
    (hrun : run (step env) es' t = some u) (hholds : (u.phase i).holds = true)
    (hlast : step env (i, answer) u = some v) (hfailed : (v.phase i).Failed) :
    v.cache = s.cache := by
  have ht := (cacheInvariant_of_run h).moves (moves_of_step hlock)
  have hu := ht.run hrun
  rw [hu.cache_of_failed hholds (moves_of_step hlast) hfailed, ← (moves_of_step hlock).cache_of_lock]
  exact (ht.held i ((ht.holder i).1 hheld)).symm

/-- With this answer the call's `resolve_auth` returns a pair: the cached one, or the one found that
is cached now. -/
def Resolved (s t : FetchState ι) (i : ι) (answer : Answer) (auth : Auth) : Prop :=
  (∃ tz apiKey, s.phase i = .locking tz ∧ answer = .lock apiKey ∧ s.cache = some auth) ∨
    ∃ tz stage, s.phase i = .resolving tz stage ∧ t.cache = some auth

theorem requesting_of_resolved {env : FetchEnv ι} (hs : CacheInvariant s)
    (h : step env (i, answer) s = some t) (hresolved : Resolved s t i answer auth) :
    ∃ tz, t.phase i = env.request i tz auth ∧ ∃ product, Framed auth.tariffCode product := by
  rcases hresolved with ⟨tz, apiKey, hphase, rfl, hcache⟩ | ⟨tz, stage, hphase, hcache⟩
  · simp only [step, hphase, FetchEnv.lockAuth, hcache] at h
    split at h
    · cases h
    · cases h
      exact ⟨tz, s.put_phase_self i _, hs.framed auth hcache⟩
  · have hnone : s.cache = none := hs.held i ((hs.holder i).1 (by rw [hphase]; rfl))
    have hframed := (hs.moves (moves_of_step h)).framed auth hcache
    rcases (moves_of_step h).cache_cases with
      hsame | ⟨tz', token, _, _, _, _, code, _, _, _, hfilled, hsent⟩ | ⟨_, _, _, hempty⟩
    · rw [hsame, hnone] at hcache
      cases hcache
    · cases hfilled.symm.trans hcache
      exact ⟨tz', hsent, hframed⟩
    · rw [hempty] at hcache
      cases hcache

/-- In every state that any calls can reach, the cached pair is one that was found together and
can be framed; a failed `resolve_auth` leaves the cache as it was; the codes accepted are those
that can be framed, and a call that resolves one asks for the product framed. -/
theorem auth_cache_sound (env : FetchEnv ι) (es : List (ι × Answer)) (s : FetchState ι)
    (h : run (step env) es .initial = some s) :
    (∀ a ∈ s.cache, 4 ≤ (segments a.tariffCode).length ∧ FoundWith env es a) ∧
    (∀ i apiKey t, step env (i, .lock apiKey) s = some t →
      ((t.phase i).Failed → t.cache = s.cache) ∧
      ∀ es' u answer v, (t.phase i).holds = true → run (step env) es' t = some u →
        (u.phase i).holds = true → step env (i, answer) u = some v → (v.phase i).Failed →
          v.cache = s.cache) ∧
    (∀ i tz token number rest now account tariffCode t,
      s.phase i = .resolving tz (.searching token number rest) →
      findAgileTariff now account = some tariffCode →
      step env (i, .account now (.ok account)) s = some t →
      ((∃ generation, t.cache = some ⟨token, tariffCode, generation⟩) ↔
        ∃ product, Framed tariffCode product)) ∧
    (∀ tariffCode product, Framed tariffCode product → productCode tariffCode = some product) ∧
    (∀ i answer t auth next, step env (i, answer) s = some t → Resolved s t i answer auth →
      env.succOpt (env.input i).date = some next →
      ∃ tz product, Framed auth.tariffCode product ∧ t.phase i = .requesting tz auth {
        url := ratesUrl product auth.tariffCode
        periodFrom := env.formatBoundary (midnight tz (env.input i).date)
        periodTo := env.formatBoundary (midnight tz next) }) ∧
    ∀ i, s.phase i ≠ .panicked .sliceOutOfRange ∧
      ∀ tz auth req, s.phase i = .requesting tz auth req →
        ∃ product, Framed auth.tariffCode product ∧ req.url = ratesUrl product auth.tariffCode := by
  have hs := cacheInvariant_of_run h
  refine ⟨?_, ?_, ?_, fun _ _ => productCode_of_framed, ?_, ?_⟩
  · intro a ha
    exact ⟨(four_le_segments_iff _).2 (hs.framed a ha), (provenance_of_run h).cached a ha⟩
  · intro i apiKey t hlock
    refine ⟨fun _ => (moves_of_step hlock).cache_of_lock, ?_⟩
    intro es' u answer v hheld hrun hholds hlast hfailed
    exact cache_of_failed_resolve h hlock hheld hrun hholds hlast hfailed
  · intro i tz token number rest now account tariffCode t hphase hfound hstep
    exact accept_iff hs hphase hfound hstep
  · intro i answer t auth next hstep hresolved hnext
    obtain ⟨tz, hsent, product, hframed⟩ := requesting_of_resolved hs hstep hresolved
    exact ⟨tz, product, hframed, hsent.trans (env.request_of_framed i tz hframed hnext)⟩
  · intro i
    have hsound := hs.sound i
    constructor
    · intro hp
      rw [hp] at hsound
      cases hsound
    · intro tz auth req hp
      rw [hp] at hsound
      exact hsound

section Sample

/-- Even calls are for 1 January 2024, and odd ones for the day after. -/
def utcCalls : FetchEnv Nat where
  input i := ⟨19723 + (i % 2 : Nat), "UTC"⟩
  tzdb name := if name = "UTC" then some (WallClock.Zone.fixed 0) else none
  succOpt d := if d < 95026236 then some (d + 1) else none
  formatBoundary t :=
    if t = 1704067200 then "2024-01-01T00:00:00Z"
    else if t = 1704153600 then "2024-01-02T00:00:00Z"
    else if t = 1704240000 then "2024-01-03T00:00:00Z"
    else ""
  formatTime _ := ""
  formatRat _ := ""

def agileAccount : Account := ⟨[⟨[⟨[⟨"E-1R-OUTGOING-AGILE-19-05-13-C", none, none⟩,
  ⟨"E-1R-AGILE-FLEX-22-11-25-C", some 1672531200, none⟩]⟩]⟩]⟩

/-- The events of a call that finds the cache empty. -/
def login (i : Nat) (token : String) : List (Nat × Answer) :=
  [(i, .called), (i, .lock (.ok "sk")), (i, .token (.ok token)), (i, .accounts (.ok ["A-1"])),
    (i, .account 1704100000 (.ok agileAccount))]

/-- Two days are fetched at once with one token, which has expired; the second 401 is dealt with
only after a retry for the first day has got another token. -/
def lateRejection : List (Nat × Answer) :=
  login 0 "jwt-1" ++ [(1, .called), (1, .lock (.ok "sk")), (0, .unauthorized), (0, .clear)] ++
    login 2 "jwt-2" ++ [(1, .unauthorized)]

/-- The call after all this takes the second pair from the cache and asks for its product. -/
theorem auth_cache_sound_late :
    ∃ s t, run (step utcCalls) (lateRejection ++ [(3, .called)]) .initial = some s ∧
      s.cache = some ⟨"jwt-2", "E-1R-AGILE-FLEX-22-11-25-C", 1⟩ ∧
      FoundWith utcCalls (lateRejection ++ [(3, .called)])
        ⟨"jwt-2", "E-1R-AGILE-FLEX-22-11-25-C", 1⟩ ∧
      step utcCalls (3, .lock (.ok "sk")) s = some t ∧
      ∃ tz product, Framed "E-1R-AGILE-FLEX-22-11-25-C" product ∧
        t.phase 3 = .requesting tz ⟨"jwt-2", "E-1R-AGILE-FLEX-22-11-25-C", 1⟩
          ⟨ratesUrl product "E-1R-AGILE-FLEX-22-11-25-C",
            utcCalls.formatBoundary (midnight tz 19724),
            utcCalls.formatBoundary (midnight tz 19725)⟩ := by
  obtain ⟨hcached, -, -, -, hresolved, -⟩ :=
    auth_cache_sound utcCalls (lateRejection ++ [(3, .called)]) _ rfl
  refine ⟨_, _, rfl, rfl, (hcached _ rfl).2, rfl, ?_⟩
  exact hresolved 3 (.lock (.ok "sk")) _ ⟨"jwt-2", "E-1R-AGILE-FLEX-22-11-25-C", 1⟩ 19725 rfl
    (.inl ⟨_, _, rfl, rfl, rfl⟩) rfl

end Sample

end Gridshift
