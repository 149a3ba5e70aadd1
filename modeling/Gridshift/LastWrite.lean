import Mathlib

namespace LastWrite
set_option autoImplicit true

/-- The state after a sequence of writers, each of which may leave it as it is. -/
def run (write : α → σ → Option σ) (s : σ) (l : List α) : σ :=
  l.foldl (fun s a => (write a s).getD s) s

/-- What one writer leaves behind makes no difference to what the next one writes. -/
def Overwrites (write : α → σ → Option σ) : Prop :=
  ∀ a s s', write a s = some s' → ∀ b, write b s' = write b s

variable {write : α → σ → Option σ}

@[simp] theorem run_cons (write : α → σ → Option σ) (s : σ) (a : α) (l : List α) :
    run write s (a :: l) = run write ((write a s).getD s) l := rfl

/-- What holds of a state, and of all that is written over such a state, holds to the end. -/
theorem run_induction {P : σ → Prop} (hs : P s)
    (hwrite : ∀ {a s s'}, P s → write a s = some s' → P s') (l : List α) : P (run write s l) := by
  induction l generalizing s with
  | nil => exact hs
  | cons a l ih =>
    rw [run_cons]
    apply ih
    cases h : write a s with
    | none => exact hs
    | some s' => exact hwrite hs h

theorem Overwrites.write_getD (h : Overwrites write) (a : α) (s : σ) (b : α) :
    write b ((write a s).getD s) = write b s := by
  cases ha : write a s with
  | none => rfl
  | some s' => exact h a s s' ha b

theorem Overwrites.run_eq (h : Overwrites write) (s : σ) (l : List α) :
    run write s l = (l.filterMap (write · s)).getLast?.getD s := by
  induction l generalizing s with
  | nil => rfl
  | cons a l ih =>
    rw [run_cons, ih]
    simp only [h.write_getD a s]
    cases ha : write a s with
    | none => rw [List.filterMap_cons_none (f := (write · s)) ha, Option.getD_none]
    | some s' =>
      rw [List.filterMap_cons_some (f := (write · s)) ha, List.getLast?_cons, Option.getD_some,
        Option.getD_some]

end LastWrite
