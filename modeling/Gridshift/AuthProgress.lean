import Gridshift.Ledger
import Gridshift.StaleRejection

namespace Gridshift
open Machine Ledger
set_option autoImplicit true

/-- The call returned, panicked or was dropped. -/
def Phase.ended : Phase → Bool
  | .returned _ => true
  | .panicked _ => true
  | .dropped => true
  | _ => false

/-- A call that was made and has not ended. -/
def Phase.live : Phase → Bool
  | .idle => false
  | p => !p.ended

def Stage.awaits : Stage → Answer → Bool
  | .authenticating _, .token _ => true
  | .listing _, .accounts _ => true
  | .searching _ _ _, .account _ _ => true
  | _, _ => false

/-- The answers that a call at this await is there for; it can be dropped at any of them. -/
def Phase.awaits : Phase → Answer → Bool
  | p, .dropped => p.live
  | .idle, .called => true
  | .locking _, .lock _ => true
  | .resolving _ stage, answer => stage.awaits answer
  | .requesting _ _ _, .unauthorized => true
  | .requesting _ _ _, .rates _ => true
  | .rejected _, .clear => true
  | _, _ => false

/-- The answer is the lock of the cache, given to the call. -/
def Answer.locks : Answer → Bool
  | .lock _ => true
  | .clear => true
  | _ => false

def Answer.drops : Answer → Bool
  | .dropped => true
  | _ => false

/-- How many answers a call can still take, where the accounts are not yet listed without those. -/
def Phase.rank : Phase → Nat
  | .idle => 6
  | .locking _ => 5
  | .resolving _ (.authenticating _) => 4
  | .resolving _ (.listing _) => 3
  | .resolving _ (.searching _ _ rest) => rest.length + 3
  | .requesting _ _ _ => 2
  | .rejected _ => 1
  | _ => 0

/-- The accounts that the answer lists. -/
def Answer.listed : Answer → Nat
  | .accounts (.ok numbers) => numbers.length
  | _ => 0

theorem Phase.live_of_holds {p : Phase} (h : p.holds = true) : p.live = true := by
  cases p with
  | resolving => rfl
  | _ => cases h

/-- The call that holds the lock awaits an answer of the API, not another lock. -/
theorem Phase.exists_awaits_of_holds {p : Phase} (h : p.holds = true) :
    ∃ answer : Answer, p.awaits answer = true ∧ answer.drops = false ∧ answer.locks = false := by
  cases p with
  | resolving tz stage =>
    cases stage with
    | authenticating apiKey => exact ⟨.token (.error ""), rfl, rfl, rfl⟩
    | listing token => exact ⟨.accounts (.error ""), rfl, rfl, rfl⟩
    | searching token number rest => exact ⟨.account 0 (.error ""), rfl, rfl, rfl⟩
  | _ => cases h

theorem Phase.exists_awaits_of_live {p : Phase} (h : p.live = true) :
    ∃ answer : Answer, p.awaits answer = true ∧ answer.drops = false := by
  cases p with
  | locking tz => exact ⟨.lock (.error ""), rfl, rfl⟩
  | resolving tz stage =>
    obtain ⟨answer, hawaits, hdrops, -⟩ :=
      Phase.exists_awaits_of_holds (p := .resolving tz stage) rfl
    exact ⟨answer, hawaits, hdrops⟩
  | requesting tz auth request => exact ⟨.unauthorized, rfl, rfl⟩
  | rejected auth => exact ⟨.clear, rfl, rfl⟩
  | _ => cases h

theorem Phase.not_locks_of_holds {p : Phase} (h : p.holds = true)
    (hawaits : p.awaits answer = true) :
    answer.locks = false := by
  cases p with
  | resolving tz stage =>
    cases answer with
    | lock apiKey =>
      cases stage with
      | _ => cases hawaits
    | clear =>
      cases stage with
      | _ => cases hawaits
    | _ => rfl
  | _ => cases h

theorem Phase.three_le_rank_resolving (tz : Tz) (stage : Stage) :
    3 ≤ (Phase.resolving tz stage).rank := by
  cases stage with
  | authenticating apiKey => exact Nat.le_succ 3
  | listing token => exact le_refl 3
  | searching token number rest => exact Nat.le_add_left 3 _

theorem FetchEnv.rank_request_le (env : FetchEnv ι) (i : ι) (tz : Tz) (auth : Auth) :
    (env.request i tz auth).rank ≤ 2 := by
  rw [FetchEnv.request]
  split
  · exact Nat.zero_le 2
  · split
    · exact Nat.zero_le 2
    · exact le_refl 2

section Calls
variable [DecidableEq ι]

theorem FetchState.put_lock (s : FetchState ι) (i : ι) (p : Phase) : (s.put i p).lock = s.lock :=
  rfl

theorem FetchEnv.start_isSome_iff (env : FetchEnv ι) (i : ι) (s : FetchState ι) :
    (env.start i s answer).isSome = true ↔
      Phase.idle.awaits answer = true ∧ (answer.locks = true → s.lock = none) := by
  cases answer with
  | called =>
    simp only [FetchEnv.start, Phase.awaits, Answer.locks]
    cases env.tzdb (env.input i).timezone with
    | none => simp
    | some tz => simp
  | _ => simp [FetchEnv.start, Phase.awaits, Phase.live]

theorem FetchEnv.lockAuth_isSome_iff (env : FetchEnv ι) (i : ι) (tz : Tz) (s : FetchState ι) :
    (env.lockAuth i tz s answer).isSome = true ↔
      (Phase.locking tz).awaits answer = true ∧ (answer.locks = true → s.lock = none) := by
  cases answer with
  | lock apiKey =>
    simp only [FetchEnv.lockAuth, Phase.awaits, Answer.locks]
    cases s.lock with
    | some j => simp
    | none =>
      cases s.cache with
      | some auth => simp
      | none =>
        cases apiKey with
        | _ => simp
  | _ => simp [FetchEnv.lockAuth, Phase.awaits, Phase.live, Phase.ended, Answer.locks]

/-- The holder of the lock waits for nobody else. -/
theorem FetchEnv.resolveAuth_isSome_iff (env : FetchEnv ι) (i : ι) (tz : Tz) (s : FetchState ι)
    (stage : Stage) :
    (env.resolveAuth i tz s stage answer).isSome = true ↔
      (Phase.resolving tz stage).awaits answer = true := by
  cases stage with
  | authenticating apiKey =>
    cases answer with
    | token answer =>
      cases answer with
      | _ => simp [FetchEnv.resolveAuth, Phase.awaits, Stage.awaits]
    | _ => simp [FetchEnv.resolveAuth, Phase.awaits, Stage.awaits, Phase.live, Phase.ended]
  | listing token =>
    cases answer with
    | accounts answer =>
      rcases answer with e | (_ | ⟨number, rest⟩)
      · simp [FetchEnv.resolveAuth, Phase.awaits, Stage.awaits]
      · simp [FetchEnv.resolveAuth, Phase.awaits, Stage.awaits]
      · simp [FetchEnv.resolveAuth, Phase.awaits, Stage.awaits]
    | _ => simp [FetchEnv.resolveAuth, Phase.awaits, Stage.awaits, Phase.live, Phase.ended]
  | searching token number rest =>
    cases answer with
    | account now answer =>
      cases answer with
      | error e => simp [FetchEnv.resolveAuth, Phase.awaits, Stage.awaits]
      | ok account =>
        simp only [FetchEnv.resolveAuth, Phase.awaits, Stage.awaits]
        split
        · simp
        · simp
        · simp
    | _ => simp [FetchEnv.resolveAuth, Phase.awaits, Stage.awaits, Phase.live, Phase.ended]

theorem FetchEnv.receive_isSome_iff (env : FetchEnv ι) (i : ι) (tz : Tz) (auth : Auth)
    (request : RatesRequest) (s : FetchState ι) :
    (env.receive i tz auth s answer).isSome = true ↔
      (Phase.requesting tz auth request).awaits answer = true ∧
        (answer.locks = true → s.lock = none) := by
  cases answer with
  | rates answer =>
    cases answer with
    | _ => simp [FetchEnv.receive, Phase.awaits, Answer.locks]
  | _ => simp [FetchEnv.receive, Phase.awaits, Phase.live, Phase.ended, Answer.locks]

theorem FetchState.invalidate_isSome_iff (s : FetchState ι) (i : ι) (auth : Auth) :
    (s.invalidate i answer).isSome = true ↔
      (Phase.rejected auth).awaits answer = true ∧ (answer.locks = true → s.lock = none) := by
  cases answer with
  | clear =>
    simp only [FetchState.invalidate, Phase.awaits, Answer.locks]
    cases s.lock with
    | none => simp
    | some j => simp
  | _ => simp [FetchState.invalidate, Phase.awaits, Phase.live, Phase.ended, Answer.locks]

/-- A call takes an answer that it awaits, if that is not the lock while another call has it. -/
theorem step_isSome_iff (env : FetchEnv ι) (s : FetchState ι) (i : ι) (answer : Answer) :
    (step env (i, answer) s).isSome = true ↔
      (s.phase i).awaits answer = true ∧ (answer.locks = true → s.lock = none) := by
  rw [step]
  cases hphase : s.phase i with
  | idle => exact env.start_isSome_iff i s
  | locking tz => exact env.lockAuth_isSome_iff i tz s
  | resolving tz stage =>
    rw [env.resolveAuth_isSome_iff i tz s stage]
    constructor
    · intro h
      refine ⟨h, fun hlocks => ?_⟩
      rw [Phase.not_locks_of_holds rfl h] at hlocks
      cases hlocks
    · exact And.left
  | requesting tz auth request => exact env.receive_isSome_iff i tz auth request s
  | rejected auth => exact s.invalidate_isSome_iff i auth
  | returned | panicked | dropped =>
    cases answer with
    | _ => simp [Phase.awaits, Phase.live, Phase.ended]

theorem FetchState.rank_put_le (s : FetchState ι) (i : ι) (hp : p.rank ≤ n) :
    ((s.put i p).phase i).rank ≤ n := by
  rw [FetchState.put_phase_self]
  exact hp

theorem FetchEnv.rank_accept_le (env : FetchEnv ι) (i : ι) (tz : Tz) (token tariffCode : String)
    (s : FetchState ι) : ((env.accept i tz token tariffCode s).phase i).rank ≤ 2 := by
  rw [FetchEnv.accept]
  split
  · exact s.rank_put_le i (Nat.zero_le 2)
  · exact s.rank_put_le i (env.rank_request_le i tz _)

theorem FetchEnv.rank_start {env : FetchEnv ι} (h : env.start i s answer = some s') :
    (s'.phase i).rank ≤ 5 := by
  rw [FetchEnv.start.eq_def] at h
  split at h
  · split at h
    · cases h
      exact s.rank_put_le i (Nat.zero_le 5)
    · cases h
      exact s.rank_put_le i (le_refl 5)
  · cases h

theorem FetchEnv.rank_lockAuth {env : FetchEnv ι} (h : env.lockAuth i tz s answer = some s') :
    (s'.phase i).rank ≤ 4 := by
  rw [FetchEnv.lockAuth.eq_def] at h
  split at h
  · split at h
    · cases h
    · split at h
      · cases h
        exact s.rank_put_le i ((env.rank_request_le i tz _).trans (by decide))
      · cases h
        exact s.rank_put_le i (Nat.zero_le 4)
      · cases h
        exact s.rank_put_le i (le_refl 4)
  · cases h
    exact s.rank_put_le i (Nat.zero_le 4)
  · cases h

/-- Each answer takes `resolve_auth` on to the next await, or to the next account. -/
theorem FetchEnv.rank_resolveAuth {env : FetchEnv ι}
    (h : env.resolveAuth i tz s stage answer = some s') :
    (s'.phase i).rank + 1 ≤ (Phase.resolving tz stage).rank + answer.listed := by
  have hstage := Phase.three_le_rank_resolving tz stage
  have hended {p : Phase} (hp : p.rank = 0) :
      ((s.put i p).phase i).rank + 1 ≤ (Phase.resolving tz stage).rank + answer.listed := by
    have hput := s.rank_put_le i (Nat.le_of_eq hp)
    omega
  rw [FetchEnv.resolveAuth.eq_def] at h
  split at h
  · cases h
    exact hended rfl
  · cases h
    exact Nat.succ_le_succ (s.rank_put_le i (le_refl 3))
  · cases h
    exact hended rfl
  · cases h
    exact hended rfl
  · rename_i token number rest
    cases h
    have hput := s.rank_put_le i (le_refl (Phase.resolving tz (.searching token number rest)).rank)
    exact (Nat.succ_le_succ hput).trans_eq (Nat.add_comm (rest.length + 1) 3)
  · cases h
    exact hended rfl
  · split at h
    · cases h
      exact (Nat.succ_le_succ (env.rank_accept_le i tz _ _ s)).trans (Nat.le_add_right_of_le hstage)
    · cases h
      exact hended rfl
    · cases h
      exact Nat.succ_le_succ (s.rank_put_le i (le_refl _))
  · cases h
    exact hended rfl
  · cases h

theorem FetchEnv.rank_receive {env : FetchEnv ι} (h : env.receive i tz auth s answer = some s') :
    (s'.phase i).rank ≤ 1 := by
  rw [FetchEnv.receive.eq_def] at h
  split at h
  · cases h
    exact s.rank_put_le i (le_refl 1)
  · cases h
    exact s.rank_put_le i (Nat.zero_le 1)
  · cases h
    refine s.rank_put_le i (Nat.zero_le 1)
  · cases h
    exact s.rank_put_le i (Nat.zero_le 1)
  · cases h

theorem FetchState.rank_invalidate {s : FetchState ι} (h : s.invalidate i answer = some s') :
    (s'.phase i).rank ≤ 0 := by
  rw [FetchState.invalidate.eq_def] at h
  split at h
  · split at h
    · cases h
    · cases h
      exact s.rank_put_le i (le_refl 0)
  · cases h
    exact s.rank_put_le i (le_refl 0)
  · cases h

/-- Every answer that a call takes is one that it had left, or lists accounts to ask for. -/
theorem rank_step {env : FetchEnv ι} (h : step env (i, answer) s = some s') :
    (s'.phase i).rank + 1 ≤ (s.phase i).rank + answer.listed := by
  have hspent {n : Nat} (hle : (s'.phase i).rank ≤ n) :
      (s'.phase i).rank + 1 ≤ n + 1 + answer.listed :=
    (Nat.succ_le_succ hle).trans (Nat.le_add_right _ _)
  simp only [step] at h
  split at h
  · rename_i hphase
    rw [hphase]
    exact hspent (env.rank_start h)
  · rename_i hphase
    rw [hphase]
    exact hspent (env.rank_lockAuth h)
  · rename_i hphase
    rw [hphase]
    exact env.rank_resolveAuth h
  · rename_i hphase
    rw [hphase]
    exact hspent (env.rank_receive h)
  · rename_i hphase
    rw [hphase]
    exact hspent (FetchState.rank_invalidate h)
  · cases h

/-- The answers that a call took. -/
def answersTo (i : ι) (es : List (ι × Answer)) : List Answer :=
  (es.filter fun e => e.1 = i).map Prod.snd

theorem total_answersTo (c : Answer → Nat) (i : ι) (es : List (ι × Answer)) :
    (es.map fun e => if e.1 = i then c e.2 else 0).sum = ((answersTo i es).map c).sum := by
  induction es with
  | nil => rfl
  | cons e es ih =>
    rw [List.map_cons, List.sum_cons, ih, answersTo, answersTo, List.filter_cons]
    by_cases he : e.1 = i
    · simp only [he, decide_true, if_true, List.map_cons, List.sum_cons]
    · simp only [he, decide_false, if_false, Bool.false_eq_true, Nat.zero_add]

/-- A call takes no more answers than its awaits, one for each account listed to it. -/
theorem answersTo_length_le {env : FetchEnv ι} (i : ι) (h : run (step env) es .initial = some s) :
    (s.phase i).rank + (answersTo i es).length ≤ 6 + ((answersTo i es).map Answer.listed).sum := by
  have hone : ((answersTo i es).map fun _ => 1).sum = (answersTo i es).length := by
    rw [List.map_const', List.sum_replicate, smul_eq_mul, Nat.mul_one]
  rw [← hone, ← total_answersTo, ← total_answersTo, ← total_of_event h, ← total_of_event h]
  apply total_le (fun s => (s.phase i).rank) _ _ h
  intro es e t u hrun hstep
  by_cases he : e.1 = i
  · subst he
    simp only [if_true]
    exact rank_step hstep
  · simp only [he, if_false, step_phase_of_ne hstep (Ne.symm he)]
    exact le_refl _

/-- A call that awaits the lock waits for a call that can take any answer of the API. -/
theorem CacheInvariant.exists_able (env : FetchEnv ι) (hs : CacheInvariant s) {i : ι}
    (hi : (s.phase i).live = true) :
    ∃ j, (j = i ∨ s.lock = some j) ∧ (s.phase j).live = true ∧
      ∀ answer, (s.phase j).awaits answer = true → (step env (j, answer) s).isSome = true := by
  cases hlock : s.lock with
  | none => exact ⟨i, .inl rfl, hi, fun _ h => (step_isSome_iff ..).2 ⟨h, fun _ => hlock⟩⟩
  | some j =>
    have hholds := (hs.holder j).2 hlock
    refine ⟨j, .inr rfl, Phase.live_of_holds hholds, fun answer h => ?_⟩
    refine (step_isSome_iff ..).2 ⟨h, fun hlocks => ?_⟩
    rw [Phase.not_locks_of_holds hholds h] at hlocks
    cases hlocks

/-- No call can go on, unless one that was not made is, or one is dropped. -/
def FetchState.Stuck (env : FetchEnv ι) (s : FetchState ι) : Prop :=
  ∀ i answer, (s.phase i).live = true → answer.drops = false → step env (i, answer) s = none

theorem CacheInvariant.not_live_of_stuck {env : FetchEnv ι} (hs : CacheInvariant s)
    (hstuck : s.Stuck env) (i : ι) : (s.phase i).live = false := by
  by_contra hi
  obtain ⟨j, -, hlive, hable⟩ := hs.exists_able env (Bool.not_eq_false _ ▸ hi)
  obtain ⟨answer, hawaits, hdrops⟩ := Phase.exists_awaits_of_live hlive
  have hsome := hable answer hawaits
  rw [hstuck j answer hlive hdrops] at hsome
  cases hsome

/-- In whatever order the answers come, one call at most holds the lock; a call that is live can
take the answers that it awaits, or the holder of the lock can; when none can go on, all that were
made have ended; and each takes at most six answers, and one for every account listed to it. -/
theorem fetch_calls_progress (env : FetchEnv ι) (es : List (ι × Answer)) (s : FetchState ι)
    (h : run (step env) es .initial = some s) :
    (∀ i j, (s.phase i).holds = true → (s.phase j).holds = true → i = j) ∧
    (∀ i, (s.phase i).live = true → ∃ j, (j = i ∨ s.lock = some j) ∧ (s.phase j).live = true ∧
      ∀ answer, (s.phase j).awaits answer = true → (step env (j, answer) s).isSome = true) ∧
    (s.Stuck env → ∀ i, (s.phase i).live = false) ∧
    ∀ i, (s.phase i).rank + (answersTo i es).length ≤
      6 + ((answersTo i es).map Answer.listed).sum := by
  have hs := cacheInvariant_of_run h
  refine ⟨?_, fun i hi => hs.exists_able env hi, hs.not_live_of_stuck, fun i => answersTo_length_le i h⟩
  intro i j hi hj
  exact Option.some.inj (((hs.holder i).1 hi).symm.trans ((hs.holder j).1 hj))

end Calls

section Sample

theorem fetch_calls_progress_late :
    (answersTo 0 lateRejection).length ≤ 7 ∧ (answersTo 1 lateRejection).length ≤ 6 ∧
      (answersTo 2 lateRejection).length ≤ 7 := by
  have hbound := (fetch_calls_progress utcCalls lateRejection _ rfl).2.2.2
  exact ⟨Nat.le_of_add_left_le (hbound 0), Nat.le_of_add_left_le (hbound 1),
    Nat.le_of_add_left_le (hbound 2)⟩

end Sample

end Gridshift
