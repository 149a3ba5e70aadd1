import Mathlib

namespace Sorting
set_option autoImplicit true

def lefts (cs : List (α ⊕ β)) : List α := cs.filterMap Sum.getLeft?

def rights (cs : List (α ⊕ β)) : List β := cs.filterMap Sum.getRight?

@[simp] theorem lefts_nil : lefts ([] : List (α ⊕ β)) = [] := rfl

@[simp] theorem lefts_inl (a : α) (cs : List (α ⊕ β)) : lefts (.inl a :: cs) = a :: lefts cs := rfl
@[simp] theorem lefts_inr (b : β) (cs : List (α ⊕ β)) : lefts (.inr b :: cs) = lefts cs := rfl
@[simp] theorem rights_inl (a : α) (cs : List (α ⊕ β)) : rights (.inl a :: cs) = rights cs := rfl

@[simp] theorem rights_inr (b : β) (cs : List (α ⊕ β)) :
    rights (.inr b :: cs) = b :: rights cs := rfl

/-- Sorting values into two lists neither loses nor repeats one. -/
theorem split_perm (f : α → γ) (g : β → γ) (cs : List (α ⊕ β)) :
    ((lefts cs).map f ++ (rights cs).map g).Perm (cs.map (Sum.elim f g)) := by
  induction cs with
  | nil => exact .nil
  | cons c cs ih =>
    cases c with
    | inl a => exact ih.cons (f a)
    | inr b => exact List.perm_middle.trans (ih.cons (g b))

theorem except_bind_eq_ok_iff {x : Except ε α} {f : α → Except ε β} :
    x >>= f = .ok b ↔ ∃ a, x = .ok a ∧ f a = .ok b := by
  cases x <;> simp [bind, Except.bind]

theorem elim_eq_ok_iff {x : Option α} {e : ε} :
    x.elim (Except.error e) Except.ok = .ok a ↔ x = some a := by
  cases x <;> simp

theorem mapM_eq_some_iff {f : α → Option β} {l : List α} {r : List β} :
    l.mapM f = some r ↔ l.map f = r.map some := by
  induction l generalizing r with
  | nil => cases r <;> simp
  | cons a l ih =>
    rw [List.mapM_cons]
    cases h : f a with
    | none => cases r <;> simp [h]
    | some b =>
      cases hl : l.mapM f with
      | none =>
        cases r with
        | nil => simp
        | cons c r =>
          have hr : l.map f ≠ r.map some := fun h => nomatch hl.symm.trans (ih.2 h)
          simp [h, hr]
      | some bs =>
        have hbs := ih.1 hl
        cases r with
        | nil => simp
        | cons c r => simp [h, hbs, List.map_inj_right]

theorem mapM_eq_ok_iff {f : α → Except ε β} {l : List α} {r : List β} :
    l.mapM f = .ok r ↔ l.map f = r.map .ok := by
  induction l generalizing r with
  | nil => cases r <;> simp [pure, Except.pure]
  | cons a l ih =>
    rw [List.mapM_cons]
    cases h : f a with
    | error e => cases r <;> simp [h, bind, Except.bind]
    | ok b =>
      cases hl : l.mapM f with
      | error e =>
        cases r with
        | nil => simp [bind, Except.bind]
        | cons c r =>
          have hr : l.map f ≠ r.map .ok := fun h => nomatch hl.symm.trans (ih.2 h)
          simp [h, hr, bind, Except.bind]
      | ok bs =>
        have hbs := ih.1 hl
        cases r with
        | nil => simp [bind, Except.bind, pure, Except.pure]
        | cons c r =>
          have hinj : (bs.map Except.ok : List (Except ε β)) = r.map .ok ↔ bs = r :=
            List.map_inj_right fun _ _ => Except.ok.inj
          simp [h, hbs, hinj, bind, Except.bind, pure, Except.pure]

theorem exists_mapM_eq_ok {f : α → Except ε β} {l : List α} (h : ∀ a ∈ l, ∃ b, f a = .ok b) :
    ∃ r, l.mapM f = .ok r := by
  induction l with
  | nil => exact ⟨[], rfl⟩
  | cons a l ih =>
    obtain ⟨b, hb⟩ := h a List.mem_cons_self
    obtain ⟨r, hr⟩ := ih fun a ha => h a (List.mem_cons_of_mem _ ha)
    refine ⟨b :: r, mapM_eq_ok_iff.2 ?_⟩
    rw [List.map_cons, hb, mapM_eq_ok_iff.1 hr, List.map_cons]

/-- Picking out of a list keeps one value for each element when nothing is dropped. -/
theorem filterMap_eq_map_iff {f : α → Option β} {g : α → β} {l : List α} :
    l.filterMap f = l.map g ↔ ∀ a ∈ l, f a = some (g a) := by
  induction l with
  | nil => simp
  | cons a l ih =>
    cases h : f a with
    | none =>
      have hlen : (l.filterMap f).length ≠ (g a :: l.map g).length := by
        have := List.length_filterMap_le f l
        simp only [List.length_cons, List.length_map]
        omega
      have hne : l.filterMap f ≠ g a :: l.map g := fun he => hlen (congrArg List.length he)
      simp [h, hne]
    | some b => simp [h, ih]

end Sorting
