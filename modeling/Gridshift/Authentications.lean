import Gridshift.AuthProgress

namespace Gridshift
open Machine Ledger
set_option autoImplicit true

/-- A resolution is going on or has left its pair in the cache. -/
def FetchState.kept (s : FetchState ι) : Nat := if s.lock = none ∧ s.cache = none then 0 else 1

/-- The key was exchanged for a token, which is asked for when the lock is kept. -/
def authenticates (_ : ι × Answer) (s t : FetchState ι) : Nat :=
  if s.lock = none ∧ t.lock ≠ none then 1 else 0

def evicts (_ : ι × Answer) (s t : FetchState ι) : Nat :=
  if s.cache ≠ none ∧ t.cache = none then 1 else 0

/-- The lock was let go of without a pair to show for it. -/
def abandons (_ : ι × Answer) (s t : FetchState ι) : Nat :=
  if s.lock ≠ none ∧ t.lock = none ∧ t.cache = none then 1 else 0

def Answer.clears : Answer → Bool
  | .clear => true
  | _ => false

/-- A step takes the stock up by a token asked for, and down by a pair lost. -/
def Balances (e : ι × Answer) (s t : FetchState ι) : Prop :=
  t.kept + (abandons e s t + evicts e s t) = s.kept + authenticates e s t

theorem balances_of_same {s t : FetchState ι} (hlock : t.lock = s.lock)
    (hcache : t.cache = s.cache) : Balances e s t := by
  rw [Balances, FetchState.kept, FetchState.kept, abandons, evicts, authenticates, hlock, hcache]
  cases s.lock with
  | none => simp
  | some j => simp

variable {ι : Type} [DecidableEq ι]

theorem CacheInvariant.balances {env : FetchEnv ι} (hs : CacheInvariant s)
    (h : Moves env s i answer s') : Balances (i, answer) s s' := by
  cases h with
  | hold h hlock hcache =>
    simp [Balances, FetchState.kept, abandons, evicts, authenticates, hlock, hcache]
  | release h hp =>
    have hlock := (hs.holder i).1 h
    simp [Balances, FetchState.kept, abandons, evicts, authenticates, FetchState.release, hlock,
      hs.held i hlock]
  | fill h hfound hformat =>
    have hlock := (hs.holder i).1 (by rw [h]; rfl)
    simp [Balances, FetchState.kept, abandons, evicts, authenticates, hlock, hs.held i hlock]
  | clear h hlock hp =>
    cases hcache : s.cache with
    | none => simp [Balances, FetchState.kept, abandons, evicts, authenticates, hlock, hcache,
        FetchState.put_lock]
    | some auth => simp [Balances, FetchState.kept, abandons, evicts, authenticates, hlock, hcache,
        FetchState.put_lock]
  | _ => exact balances_of_same rfl rfl

theorem Moves.evicts_le {env : FetchEnv ι} (hs : CacheInvariant s) (h : Moves env s i answer s') :
    evicts (i, answer) s s' ≤ if answer.clears = true then 1 else 0 := by
  rw [evicts]
  split
  · rename_i hleft
    obtain ⟨a, ha⟩ := Option.ne_none_iff_exists'.1 hleft.1
    have hgone : s'.cache ≠ some a := by
      rw [hleft.2]
      exact (Option.some_ne_none a).symm
    obtain ⟨rfl, -⟩ := hs.clear_of_leaves h ha hgone
    exact le_refl 1
  · exact Nat.zero_le _

/-- Whatever the calls and the API do, and in whatever order, a token was asked for once for the
pair in the cache or the resolution that is going on, if there is one, once for every resolution
that was given up, and once for every pair that a 401 threw away: never for a call that finds the
cache filled. -/
theorem authentications_eq (env : FetchEnv ι) (es : List (ι × Answer)) (s : FetchState ι)
    (h : run (step env) es .initial = some s) :
    total (step env) authenticates es .initial =
      s.kept + total (step env) abandons es .initial + total (step env) evicts es .initial ∧
    total (step env) evicts es .initial ≤ es.countP (fun e => e.2.clears) := by
  constructor
  · have hbalance := total_eq FetchState.kept (fun e s t => abandons e s t + evicts e s t)
      authenticates h fun _ _ _ _ hrun hstep =>
        (cacheInvariant_of_run hrun).balances (moves_of_step hstep)
    have hstart : (FetchState.initial : FetchState ι).kept = 0 := rfl
    rw [total_add, hstart, Nat.zero_add, ← Nat.add_assoc] at hbalance
    exact hbalance.symm
  · rw [← total_countP (fun e => e.2.clears) h]
    have hbound := total_le (fun _ => 0) evicts
      (fun e _ _ => if e.2.clears = true then 1 else 0) h fun _ _ _ _ hrun hstep => by
        rw [Nat.zero_add, Nat.zero_add]
        exact (moves_of_step hstep).evicts_le (cacheInvariant_of_run hrun)
    rwa [Nat.zero_add, Nat.zero_add] at hbound

section Sample

theorem authentications_eq_late :
    total (step utcCalls) authenticates lateRejection .initial = 2 ∧
    total (step utcCalls) evicts lateRejection .initial ≤ 1 :=
  authentications_eq utcCalls lateRejection _ rfl

end Sample

end Gridshift
