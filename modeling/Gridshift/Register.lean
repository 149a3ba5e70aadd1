import Gridshift.LastWrite
import Gridshift.Machine

namespace Register
open LastWrite Machine
set_option autoImplicit true

/-- A cell, and what each writer has made of the value it read. -/
structure Cell (κ σ : Type) where
  value : σ
  sent : κ → Option σ

inductive Access (κ : Type) where
  | read (k : κ)
  | write (k : κ)

/-- A writer reads at one time and writes at any later ones; what it sent may land repeatedly. -/
def step [DecidableEq κ] (f : κ → σ → Option σ) : Access κ → Cell κ σ → Option (Cell κ σ)
  | .read k, c => (f k c.value).map fun v => { c with sent := Function.update c.sent k (some v) }
  | .write k, c => (c.sent k).map fun v => { c with value := v }

def landed : Access κ → List κ
  | .read _ => []
  | .write k => [k]

/-- The cell holds what the writers that landed leave behind one after another, and what any
writer sent is what it makes of the first value. -/
structure Linear (f : κ → σ → Option σ) (x : σ) (l : List κ) (c : Cell κ σ) : Prop where
  value : c.value = LastWrite.run f x l
  sent : ∀ k v, c.sent k = some v → f k x = some v
  writes : ∀ k ∈ l, ∃ v, f k x = some v

theorem write_run {f : κ → σ → Option σ} (h : Overwrites f) (k : κ) (x : σ) (l : List κ) :
    f k (LastWrite.run f x l) = f k x := by
  apply LastWrite.run_induction (P := fun y => f k y = f k x) rfl
  intro j y y' hy hwrite
  rw [h j y y' hwrite k, hy]

/-- The last writer to land decides the value, as if no other had been. -/
theorem Linear.value_of_getLast? {f : κ → σ → Option σ} (hf : Overwrites f) (h : Linear f x l c)
    (hlast : l.getLast? = some k) : f k x = some c.value := by
  obtain ⟨v, hv⟩ := h.writes k (List.mem_of_getLast? hlast)
  obtain ⟨l, rfl⟩ := List.getLast?_eq_some_iff.1 hlast
  rw [h.value, hf.run_eq, List.filterMap_append, List.filterMap_cons_some (f := (f · x)) hv,
    List.filterMap_nil, List.getLast?_concat, Option.getD_some, hv]

variable [DecidableEq κ] {f : κ → σ → Option σ}

theorem Linear.step {a : Access κ} (hf : Overwrites f) (h : Linear f x l c)
    (hstep : step f a c = some c') : Linear f x (l ++ landed a) c' := by
  cases a with
  | read k =>
    obtain ⟨v, hv, rfl⟩ := Option.map_eq_some_iff.1 hstep
    rw [h.value, write_run hf] at hv
    refine ⟨h.value.trans (by rw [landed, List.append_nil]), ?_, ?_⟩
    · intro j w hw
      change Function.update c.sent k (some v) j = some w at hw
      by_cases hj : j = k
      · subst hj
        rw [Function.update_self] at hw
        exact hv.trans hw
      · rw [Function.update_of_ne hj] at hw
        exact h.sent j w hw
    · rw [landed, List.append_nil]
      exact h.writes
  | write k =>
    obtain ⟨v, hv, rfl⟩ := Option.map_eq_some_iff.1 hstep
    refine ⟨?_, h.sent, ?_⟩
    · rw [landed, LastWrite.run, List.foldl_append]
      change v = (f k (LastWrite.run f x l)).getD (LastWrite.run f x l)
      rw [write_run hf, h.sent k v hv, Option.getD_some]
    · intro j hj
      rcases List.mem_append.1 hj with hj | hj
      · exact h.writes j hj
      · cases List.mem_singleton.1 hj
        exact ⟨v, h.sent k v hv⟩

/-- However reads and writes interleave, the cell ends as if each writer that landed had read and
written at once. -/
theorem linear_of_run (hf : Overwrites f) (h : run (step f) as ⟨x, fun _ => none⟩ = some c) :
    Linear f x (as.flatMap landed) c := by
  apply Machine.run_induction (P := fun as c => Linear f x (as.flatMap landed) c) h
  · exact ⟨rfl, (by intro k v hv; cases hv), List.forall_mem_nil _⟩
  · intro as a c c' _ hc hstep
    rw [List.flatMap_append, List.flatMap_singleton]
    exact hc.step hf hstep

end Register
