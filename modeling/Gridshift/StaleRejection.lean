import Gridshift.TariffCache

namespace Gridshift
open Machine
set_option autoImplicit true

/-- A call is to fetch, or was refused, with what it had resolved. -/
def FetchState.Uses (s : FetchState ι) (i : ι) (a : Auth) : Prop := (s.phase i).auth? = some a

/-- A pair is the cached one or older, and older than the next to be cached. -/
def FetchState.Bounds (s : FetchState ι) (a : Auth) : Prop :=
  a.generation < s.generations ∧ ∀ b ∈ s.cache, a = b ∨ a.generation < b.generation

structure GenerationInvariant (s : FetchState ι) : Prop where
  newest : ∀ a ∈ s.cache, a.generation + 1 = s.generations
  used : ∀ j a, s.Uses j a → s.Bounds a

theorem GenerationInvariant.initial : GenerationInvariant (.initial : FetchState ι) where
  newest a ha := absurd ha (Option.not_mem_none a)
  used _ a ha := absurd ha (Option.not_mem_none a)

variable {ι : Type} [DecidableEq ι]

theorem FetchState.uses_put {s : FetchState ι} (h : (s.put i p).Uses j a) :
    s.Uses j a ∨ j = i ∧ p.auth? = some a := by
  revert h
  apply FetchState.forall_put (Q := fun j q => q.auth? = some a →
    s.Uses j a ∨ j = i ∧ p.auth? = some a)
  · exact fun h => .inr ⟨rfl, h⟩
  · exact fun j _ h => .inl h

/-- A call comes to use a pair only by a step after which the cache holds it. -/
theorem Moves.uses_cases {env : FetchEnv ι} (h : Moves env s i answer s') (hu : s'.Uses j a) :
    s.Uses j a ∨ j = i ∧ s'.cache = some a := by
  have hnone {p : Phase} (hp : p.auth? = none) (hput : (s.put i p).Uses j a) : s.Uses j a := by
    rcases FetchState.uses_put hput with hs | ⟨-, ha⟩
    · exact hs
    · rw [hp] at ha
      cases ha
  cases h with
  | quiet hfree hp => exact .inl (hnone hp.auth?_eq hu)
  | reject h =>
    rcases FetchState.uses_put hu with hs | ⟨rfl, ha⟩
    · exact .inl hs
    · cases ha
      exact .inl (by rw [FetchState.Uses, h]; rfl)
  | hit h hlock hcache =>
    rcases FetchState.uses_put hu with hs | ⟨hj, ha⟩
    · exact .inl hs
    · rw [(env.request_sends _ _ _).eq_of_auth? ha]
      exact .inr ⟨hj, hcache⟩
  | hold h hlock hcache => exact .inl (hnone (p := .resolving _ _) rfl hu)
  | keep h htoken => exact .inl (hnone (p := .resolving _ _) rfl hu)
  | release h hp => exact .inl (hnone hp.auth?_eq hu)
  | fill h hfound hformat =>
    rcases FetchState.uses_put hu with hs | ⟨hj, ha⟩
    · exact .inl hs
    · rw [(env.request_sends _ _ _).eq_of_auth? ha]
      exact .inr ⟨hj, rfl⟩
  | clear h hlock hp => exact .inl (hnone hp.auth?_eq hu)

theorem GenerationInvariant.moves {env : FetchEnv ι} (hs : GenerationInvariant s)
    (h : Moves env s i answer s') : GenerationInvariant s' := by
  have hnewest : ∀ a ∈ s'.cache, a.generation + 1 = s'.generations := by
    cases h with
    | fill h hfound hformat =>
      intro a ha
      cases ha
      rfl
    | clear h hlock hp => exact fun a ha => absurd ha (Option.not_mem_none a)
    | _ => exact hs.newest
  have hbounds (a : Auth) (ha : s.Bounds a) : s'.Bounds a := by
    cases h with
    | fill h hfound hformat =>
      refine ⟨ha.1.trans (Nat.lt_succ_self _), ?_⟩
      intro b hb
      cases hb
      exact .inr ha.1
    | clear h hlock hp => exact ⟨ha.1, fun b hb => absurd hb (Option.not_mem_none b)⟩
    | _ => exact ha
  refine ⟨hnewest, ?_⟩
  intro j a hu
  rcases h.uses_cases hu with hold | ⟨-, hcache⟩
  · exact hbounds a (hs.used j a hold)
  · refine ⟨(hnewest a hcache) ▸ Nat.lt_succ_self _, ?_⟩
    intro b hb
    exact .inl (Option.some.inj (hcache.symm.trans hb))

theorem generationInvariant_of_run {env : FetchEnv ι} (h : run (step env) es .initial = some s) :
    GenerationInvariant s :=
  run_invariant h .initial fun _ _ _ ht hstep => ht.moves (moves_of_step hstep)

theorem Moves.not_uses_of_clear {env : FetchEnv ι} (h : Moves env s i .clear s') :
    ¬ s'.Uses i a := by
  have hnone {p : Phase} (hp : p.auth? = none) : ¬ (s.put i p).Uses i a := by
    rw [FetchState.Uses, FetchState.put_phase_self, hp]
    exact Option.not_mem_none a
  cases h with
  | quiet hfree hp => exact hnone hp.auth?_eq
  | keep h htoken => exact hnone (p := .resolving _ _) rfl
  | release h hp => exact hnone hp.auth?_eq
  | clear h hlock hp => exact hnone hp.auth?_eq

/-- Only a call that was refused takes a pair out of the cache, and leaves it empty. -/
theorem CacheInvariant.clear_of_leaves {env : FetchEnv ι} (hs : CacheInvariant s)
    (h : Moves env s i answer s') (hcache : s.cache = some a) (hleft : s'.cache ≠ some a) :
    answer = .clear ∧ (∃ c, s.phase i = .rejected c) ∧ s'.cache = none := by
  rcases h.cache_cases with hsame | ⟨_, _, _, _, _, _, _, hphase, _⟩ | ⟨c, hc, hanswer, hnone⟩
  · exact absurd (hsame.trans hcache) hleft
  · have hnone := hs.held i ((hs.holder i).1 (by rw [hphase]; rfl))
    rw [hcache] at hnone
    cases hnone
  · exact ⟨hanswer, ⟨c, hc⟩, hnone⟩

theorem Moves.account_of_fills {env : FetchEnv ι} (h : Moves env s i answer s')
    (hcache : s.cache ≠ some b) (hfilled : s'.cache = some b) :
    ∃ now account, answer = .account now (.ok account) := by
  rcases h.cache_cases with hsame | ⟨_, _, _, _, now, account, _, _, hanswer, _⟩ | ⟨_, _, _, hnone⟩
  · exact absurd (hsame.symm.trans hfilled) hcache
  · exact ⟨now, account, hanswer⟩
  · rw [hnone] at hfilled
    cases hfilled

/-- After a call resolved a pair, the 401 of another call emptied the cache, and then a call filled
it again. -/
inductive Superseded (env : FetchEnv ι) (i : ι) (a b : Auth) : List (ι × Answer) → Prop where
  | intro (hbefore : run (step env) before .initial = some s₀)
    (hresolved : step env (i, answer) s₀ = some s₁) (huses : s₁.Uses i a)
    (hfirst : s₁.cache = some a)
    (hbetween : run (step env) between s₁ = some s₂) (hk : k ≠ i)
    (hrejected : s₂.phase k = .rejected c)
    (hcleared : step env (k, .clear) s₂ = some s₃) (hempty : s₃.cache = none)
    (hlater : run (step env) later s₃ = some s₄)
    (hfilled : step env (j, .account now (.ok account)) s₄ = some s₅)
    (hnewer : s₅.cache = some b) :
    Superseded env i a b (before ++ (i, answer) :: (between ++ (k, .clear) ::
      (later ++ (j, .account now (.ok account)) :: rest)))

/-- A call that uses a pair came by it in a step that left it in the cache, and kept it since. -/
theorem exists_resolution {env : FetchEnv ι} (h : run (step env) es .initial = some s)
    (huses : s.Uses i a) :
    ∃ before answer after s₀ s₁, es = before ++ (i, answer) :: after ∧
      run (step env) before .initial = some s₀ ∧ step env (i, answer) s₀ = some s₁ ∧
      s₁.cache = some a ∧ run (step env) after s₁ = some s ∧
      Throughout (step env) (fun s => s.Uses i a) after s₁ := by
  have hfresh : ¬ (FetchState.initial : FetchState ι).Uses i a := Option.not_mem_none a
  obtain ⟨before, ⟨j, answer⟩, after, s₀, s₁, rfl, hbefore, hstep, hafter, hs₀, hkept⟩ :=
    exists_onset (P := fun s => s.Uses i a) h hfresh huses
  have huses₁ : s₁.Uses i a := hkept [] s₁ List.nil_prefix rfl
  rcases (moves_of_step hstep).uses_cases huses₁ with hold | ⟨rfl, hcache⟩
  · exact absurd hold hs₀
  · exact ⟨before, answer, after, s₀, s₁, rfl, hbefore, hstep, hcache, hafter, hkept⟩

theorem superseded_of_newer {env : FetchEnv ι} (h : run (step env) es .initial = some s)
    (huses : s.Uses i a) (hcache : s.cache = some b) (hne : a ≠ b) : Superseded env i a b es := by
  obtain ⟨before, answer, after, s₀, s₁, rfl, hbefore, hresolved, hfirst, hafter, hkept⟩ :=
    exists_resolution h huses
  have hleft : s.cache ≠ some a := by
    rw [hcache]
    exact fun he => hne (Option.some.inj he).symm
  obtain ⟨between, ⟨k, answer'⟩, after', s₂, s₃, rfl, hbetween, hcleared, hafter', hs₂, hgone⟩ :=
    exists_onset (P := fun s => s.cache ≠ some a) hafter (fun hn => hn hfirst) hleft
  have hs : CacheInvariant s₂ :=
    ((cacheInvariant_of_run hbefore).moves (moves_of_step hresolved)).run hbetween
  obtain ⟨rfl, ⟨c, hrejected⟩, hempty⟩ := hs.clear_of_leaves (moves_of_step hcleared)
    (Classical.not_not.1 hs₂) (hgone [] s₃ List.nil_prefix rfl)
  -- the call itself is still to answer for its request, so the 401 was another's
  have hk : k ≠ i := by
    rintro rfl
    have hprefix : between ++ [(k, .clear)] <+: between ++ (k, .clear) :: after' :=
      ⟨after', by rw [List.append_assoc, List.singleton_append]⟩
    have huses₃ := hkept _ s₃ hprefix ((run_concat_iff _).2 ⟨s₂, hbetween, hcleared⟩)
    exact (moves_of_step hcleared).not_uses_of_clear huses₃
  have hnot : s₃.cache ≠ some b := by
    rw [hempty]
    exact (Option.some_ne_none b).symm
  obtain ⟨later, ⟨l, answer''⟩, rest, s₄, s₅, rfl, hlater, hfilled, -, hs₄, hheld⟩ :=
    exists_onset (P := fun s => s.cache = some b) hafter' hnot hcache
  have hnewer : s₅.cache = some b := hheld [] s₅ List.nil_prefix rfl
  obtain ⟨now, account, rfl⟩ := (moves_of_step hfilled).account_of_fills hs₄ hnewer
  exact .intro hbefore hresolved (hkept [] s₁ List.nil_prefix rfl) hfirst hbetween hk hrejected
    hcleared hempty hlater hfilled hnewer

/-- A 401 empties the cache whatever it holds. What a call throws away so is the generation that
it used itself, or a newer one; the latter only if meanwhile the 401 of another call had emptied
the cache and a third resolution had filled it again. -/
theorem rejection_empties_cache (env : FetchEnv ι) (es : List (ι × Answer)) (s s' : FetchState ι)
    (i : ι) (a : Auth) (h : run (step env) es .initial = some s)
    (hrejected : s.phase i = .rejected a) (hclear : step env (i, .clear) s = some s') :
    s'.cache = none ∧ ∀ b ∈ s.cache, b = a ∨
      a.generation < b.generation ∧ Superseded env i a b es := by
  have huses : s.Uses i a := by
    rw [FetchState.Uses, hrejected]
    rfl
  constructor
  · simp only [step, hrejected, FetchState.invalidate] at hclear
    split at hclear
    · cases hclear
    · cases hclear
      rfl
  · intro b hb
    rcases ((generationInvariant_of_run h).used i a huses).2 b hb with rfl | hlt
    · exact .inl rfl
    · right
      exact ⟨hlt, superseded_of_newer h huses hb fun he => by rw [he] at hlt; exact lt_irrefl _ hlt⟩

section Sample

theorem late_rejection_discards_newer :
    ∃ s s', run (step utcCalls) lateRejection .initial = some s ∧
      s.phase 1 = .rejected ⟨"jwt-1", "E-1R-AGILE-FLEX-22-11-25-C", 0⟩ ∧
      s.cache = some ⟨"jwt-2", "E-1R-AGILE-FLEX-22-11-25-C", 1⟩ ∧
      step utcCalls (1, .clear) s = some s' ∧ s'.cache = none :=
  ⟨_, _, rfl, rfl, rfl, rfl, rfl⟩

theorem rejection_empties_cache_late :
    Superseded utcCalls 1 ⟨"jwt-1", "E-1R-AGILE-FLEX-22-11-25-C", 0⟩
      ⟨"jwt-2", "E-1R-AGILE-FLEX-22-11-25-C", 1⟩ lateRejection := by
  have h := (rejection_empties_cache utcCalls lateRejection _ _ 1 _ rfl rfl rfl).2 _ rfl
  rcases h with h | h
  · exact absurd (congrArg Auth.generation h) Nat.one_ne_zero
  · exact h.2

end Sample

end Gridshift
