import Mathlib

namespace Completion
set_option autoImplicit true

/-- An order in which concurrent calls complete: any rearrangement of them. -/
structure Order (α : Type*) where
  run : List α → List α
  perm : ∀ l, (run l).Perm l

def Order.asCalled : Order α := ⟨id, .refl⟩

def Order.reversed : Order α := ⟨List.reverse, List.reverse_perm⟩

theorem Order.mem_run (o : Order α) {l : List α} : a ∈ o.run l ↔ a ∈ l := (o.perm l).mem_iff

/-- What is sorted by a key of its own comes out the same, in whatever order it went in. -/
theorem insertionSort_eq_of_perm [LinearOrder κ] (r : α → α → Prop) [DecidableRel r] (key : α → κ)
    (hr : ∀ a b, r a b ↔ key a ≤ key b) {l l' : List α} (h : l.Perm l')
    (hkey : (l.map key).Nodup) : l.insertionSort r = l'.insertionSort r := by
  have htotal : Std.Total r := ⟨fun a b => by simpa only [hr] using le_total (key a) (key b)⟩
  have htrans : IsTrans α r := ⟨fun a b c => by simpa only [hr] using le_trans⟩
  have hperm := (List.perm_insertionSort r l).trans
    (h.trans (List.perm_insertionSort r l').symm)
  have hanti : ∀ a b, a ∈ l.insertionSort r → b ∈ l'.insertionSort r → r a b → r b a → a = b := by
    intro a b ha hb hab hba
    rw [List.mem_insertionSort] at ha hb
    rw [hr] at hab hba
    exact List.inj_on_of_nodup_map hkey ha (h.mem_iff.2 hb) (le_antisymm hab hba)
  exact hperm.eq_of_pairwise hanti (List.pairwise_insertionSort r l)
    (List.pairwise_insertionSort r l')

end Completion
