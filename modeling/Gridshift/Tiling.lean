import Mathlib

namespace Tiling
set_option autoImplicit true

variable {α : Type*} [LinearOrder α]

/-- The half-open pieces between successive boundaries are the fibres of a map. -/
def Cuts (b : Int → α) (f : α → Int) : Prop := ∀ d v, b d ≤ v ∧ v < b (d + 1) ↔ f v = d

/-- Each boundary is where the map reaches its number, and stays from there on. -/
def Thresholds (b : Int → α) (f : α → Int) : Prop := ∀ d v, b d ≤ v ↔ d ≤ f v

theorem Thresholds.cuts {b : Int → α} (h : Thresholds b f) : Cuts b f := by
  intro d v
  rw [h d v, ← not_le, h (d + 1) v]
  omega

theorem Cuts.existsUnique {b : Int → α} (h : Cuts b f) (v : α) :
    ∃! d, b d ≤ v ∧ v < b (d + 1) :=
  ⟨f v, (h (f v) v).2 rfl, fun d hd => ((h d v).1 hd).symm⟩

/-- Boundaries two apart in order keep boundaries one apart in order: the overlap of the pieces
before and after a reversed pair would have two numbers. -/
theorem Cuts.monotone {b : Int → α} (h : Cuts b f) (hb : ∀ d, b d < b (d + 2)) : Monotone b := by
  apply monotone_int_of_le_succ
  intro d
  by_contra hlt
  rw [not_le] at hlt
  have hnext : b (d + 1) < b (d + 1 + 1) := by
    rw [show d + 1 + 1 = d + 2 by ring]
    exact hlt.trans (hb d)
  have hprev : b (d - 1) < b (d + 1) := by
    have hgap := hb (d - 1)
    rwa [show d - 1 + 2 = d + 1 by ring] at hgap
  have hlater : f (b (d + 1)) = d + 1 := (h (d + 1) _).1 ⟨le_rfl, hnext⟩
  have hearlier : f (b (d + 1)) = d - 1 :=
    (h (d - 1) _).1 ⟨hprev.le, by rwa [show d - 1 + 1 = d by ring]⟩
  omega

theorem Cuts.thresholds {b : Int → α} (h : Cuts b f) (hb : ∀ d, b d < b (d + 2)) :
    Thresholds b f := by
  intro d v
  obtain ⟨hlo, hhi⟩ := (h (f v) v).2 rfl
  have hmono := h.monotone hb
  constructor
  · intro hle
    by_contra hlt
    have hbound : b (f v + 1) ≤ b d := hmono (by omega)
    exact absurd (hhi.trans_le hbound) (not_lt.2 hle)
  · intro hle
    exact (hmono hle).trans hlo

theorem cuts_iff {b : Int → α} (hb : ∀ d, b d < b (d + 2)) : Cuts b f ↔ Thresholds b f :=
  ⟨fun h => h.thresholds hb, Thresholds.cuts⟩

end Tiling
