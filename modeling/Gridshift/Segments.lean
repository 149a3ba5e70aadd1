import Mathlib

namespace Segments
set_option autoImplicit true

/-- The items from one position up to another, where both positions are in range. -/
def slice (l : List α) (start stop : Nat) : Option (List α) :=
  if start ≤ stop ∧ stop ≤ l.length then some (l.extract start stop) else none

theorem slice_append (front middle back : List α) :
    slice (front ++ middle ++ back) front.length (front.length + middle.length) = some middle := by
  have hin : front.length ≤ front.length + middle.length ∧
      front.length + middle.length ≤ (front ++ middle ++ back).length := by
    simp only [List.length_append]
    omega
  rw [slice, if_pos hin, List.extract_eq_take_drop]
  simp only [List.append_assoc, List.drop_left, Nat.add_sub_cancel_left, List.take_left]

theorem slice_map (f : α → β) (l : List α) (start stop : Nat) :
    slice (l.map f) start stop = (slice l start stop).map (List.map f) := by
  simp only [slice, List.length_map]
  split
  · rw [Option.map_some, List.extract_eq_take_drop, List.extract_eq_take_drop, List.map_take, List.map_drop]
  · rfl

theorem exists_last {l : List α} (h : sep ∈ l) : ∃ p c, l = p ++ sep :: c ∧ sep ∉ c := by
  obtain ⟨c, p, hl, hc⟩ := List.eq_append_cons_of_mem (List.mem_reverse.2 h)
  refine ⟨p.reverse, c.reverse, ?_, by rwa [List.mem_reverse]⟩
  rw [← l.reverse_reverse, hl, List.reverse_append, List.reverse_cons, List.append_assoc,
    List.singleton_append]

theorem length_splitOn [BEq α] (sep : α) (l : List α) : (l.splitOn sep).length = l.count sep + 1 := by
  induction l with
  | nil => rfl
  | cons x l ih =>
    rw [List.splitOn_cons_eq_if_modifyHead, List.count_cons]
    split
    · rw [List.length_cons, ih]
    · rw [List.length_modifyHead, ih]

variable [BEq α] [LawfulBEq α]

/-- A list with its first two and its last separator shown. -/
def framed (sep : α) (a b p c : List α) : List α := a ++ sep :: (b ++ sep :: (p ++ sep :: c))

theorem splitOn_framed (ha : sep ∉ a) (hb : sep ∉ b) (hc : sep ∉ c) (p : List α) :
    (framed sep a b p c).splitOn sep = [a, b] ++ p.splitOn sep ++ [c] := by
  rw [framed, List.splitOn_append_cons_self_of_not_mem ha,
    List.splitOn_append_cons_self_of_not_mem hb, List.splitOn_append_cons_self,
    List.splitOn_eq_singleton hc]
  rfl

/-- There are at least four pieces exactly where three separators frame a middle part. -/
theorem four_le_length_splitOn_iff (sep : α) (l : List α) :
    4 ≤ (l.splitOn sep).length ↔
      ∃ a b p c, sep ∉ a ∧ sep ∉ b ∧ sep ∉ c ∧ l = framed sep a b p c := by
  constructor
  · intro h
    rw [length_splitOn] at h
    have hcount : 0 < l.count sep := by omega
    obtain ⟨a, l', rfl, ha⟩ := List.eq_append_cons_of_mem (List.count_pos_iff.1 hcount)
    rw [List.count_append, List.count_eq_zero.2 ha, List.count_cons_self] at h
    have hcount' : 0 < l'.count sep := by omega
    obtain ⟨b, l'', rfl, hb⟩ := List.eq_append_cons_of_mem (List.count_pos_iff.1 hcount')
    rw [List.count_append, List.count_eq_zero.2 hb, List.count_cons_self] at h
    have hcount'' : 0 < l''.count sep := by omega
    obtain ⟨p, c, rfl, hc⟩ := exists_last (List.count_pos_iff.1 hcount'')
    exact ⟨a, b, p, c, ha, hb, hc, rfl⟩
  · rintro ⟨a, b, p, c, ha, hb, hc, rfl⟩
    have hp := List.length_pos_iff.2 (List.splitOn_ne_nil sep p)
    rw [splitOn_framed ha hb hc]
    simp only [List.length_append, List.length_cons, List.length_nil]
    omega

/-- What joins the pieces of a framed list between the second and the last is its middle part. -/
theorem slice_splitOn_framed (ha : sep ∉ a) (hb : sep ∉ b) (hc : sep ∉ c) (p : List α) :
    slice ((framed sep a b p c).splitOn sep) 2 (((framed sep a b p c).splitOn sep).length - 1) =
      some (p.splitOn sep) := by
  rw [splitOn_framed ha hb hc]
  have hlast : ([a, b] ++ p.splitOn sep ++ [c]).length - 1 = 2 + (p.splitOn sep).length := by
    simp only [List.length_append, List.length_cons, List.length_nil]
    omega
  rw [hlast]
  exact slice_append [a, b] (p.splitOn sep) [c]

end Segments
