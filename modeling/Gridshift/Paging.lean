import Mathlib

namespace Paging
set_option autoImplicit true

variable {κ α ε : Type*}

/-- A service is asked page by page, each time with the cursor that came with the page before, and
answers by its own state, so by the number of the call. -/
inductive Serves (fetch : Nat → κ → Except ε (α × Option κ)) : Nat → κ → List α → Prop where
  | last (h : fetch n c = .ok (page, none)) : Serves fetch n c [page]
  | more (h : fetch n c = .ok (page, some c')) (hrest : Serves fetch (n + 1) c' pages) :
    Serves fetch n c (page :: pages)

/-- The call after so many pages is refused. -/
inductive Fails (fetch : Nat → κ → Except ε (α × Option κ)) : Nat → κ → Nat → ε → Prop where
  | now (h : fetch n c = .error e) : Fails fetch n c 0 e
  | later (h : fetch n c = .ok (page, some c')) (hrest : Fails fetch (n + 1) c' k e) :
    Fails fetch n c (k + 1) e

/-- Pages are asked for until one comes without a cursor, as far as the fuel goes. -/
def collect (fetch : Nat → κ → Except ε (α × Option κ)) (items : α → List β) :
    Nat → Nat → κ → List β → Option (Except ε (List β))
  | 0, _, _, _ => none
  | fuel + 1, n, c, acc =>
    match fetch n c with
    | .error e => some (.error e)
    | .ok (page, none) => some (.ok (acc ++ items page))
    | .ok (page, some c') => collect fetch items fuel (n + 1) c' (acc ++ items page)

variable {fetch : Nat → κ → Except ε (α × Option κ)}

theorem collect_of_error {items : α → List β} (h : fetch n c = .error e) :
    collect fetch items (fuel + 1) n c acc = some (.error e) := by
  rw [collect, h]

theorem collect_of_last {items : α → List β} (h : fetch n c = .ok (page, none)) :
    collect fetch items (fuel + 1) n c acc = some (.ok (acc ++ items page)) := by
  rw [collect, h]

theorem collect_of_more {items : α → List β} (h : fetch n c = .ok (page, some c')) :
    collect fetch items (fuel + 1) n c acc =
      collect fetch items fuel (n + 1) c' (acc ++ items page) := by
  rw [collect, h]

theorem Serves.ne_nil (h : Serves fetch n c pages) : pages ≠ [] := by
  cases h with
  | _ => exact List.cons_ne_nil _ _

/-- With fuel for the pages there are, all items are collected, in their order. -/
theorem Serves.collect_eq {items : α → List β} (h : Serves fetch n c pages)
    (hfuel : pages.length ≤ fuel) :
    collect fetch items fuel n c acc = some (.ok (acc ++ pages.flatMap items)) := by
  induction h generalizing fuel acc with
  | last h =>
    obtain ⟨fuel, rfl⟩ := Nat.exists_eq_succ_of_ne_zero (Nat.one_le_iff_ne_zero.1 hfuel)
    rw [collect_of_last h, List.flatMap_singleton]
  | more h hrest ih =>
    cases fuel with
    | zero => exact absurd hfuel (Nat.not_succ_le_zero _)
    | succ fuel =>
      rw [collect_of_more h, ih (Nat.le_of_succ_le_succ hfuel), List.flatMap_cons,
        List.append_assoc]

theorem Fails.collect_eq {items : α → List β} (h : Fails fetch n c k e) (hfuel : k < fuel) :
    collect fetch items fuel n c acc = some (.error e) := by
  induction h generalizing fuel acc with
  | now h =>
    obtain ⟨fuel, rfl⟩ := Nat.exists_eq_succ_of_ne_zero (Nat.ne_zero_of_lt hfuel)
    exact collect_of_error h
  | later h hrest ih =>
    cases fuel with
    | zero => exact absurd hfuel (Nat.not_lt_zero _)
    | succ fuel =>
      rw [collect_of_more h]
      exact ih (Nat.lt_of_succ_lt_succ hfuel)

/-- What is returned tells what was served: all the pages, or some of them and an error. -/
theorem served_of_collect {items : α → List β}
    (h : collect fetch items fuel n c acc = some result) :
    (∃ pages, Serves fetch n c pages ∧ pages.length ≤ fuel ∧
      result = .ok (acc ++ pages.flatMap items)) ∨
    ∃ k e, Fails fetch n c k e ∧ k < fuel ∧ result = .error e := by
  induction fuel generalizing n c acc with
  | zero => cases h
  | succ fuel ih =>
    cases hfetch : fetch n c with
    | error e =>
      rw [collect_of_error hfetch] at h
      exact .inr ⟨0, e, .now hfetch, Nat.succ_pos fuel, (Option.some.inj h).symm⟩
    | ok answer =>
      obtain ⟨page, cursor⟩ := answer
      cases cursor with
      | none =>
        rw [collect_of_last hfetch] at h
        refine .inl ⟨[page], .last hfetch, Nat.succ_le_succ (Nat.zero_le fuel), ?_⟩
        rw [List.flatMap_singleton, ← Option.some.inj h]
      | some c' =>
        rw [collect_of_more hfetch] at h
        rcases ih h with ⟨pages, hserves, hlength, hresult⟩ | ⟨k, e, hfails, hk, hresult⟩
        · refine .inl ⟨page :: pages, .more hfetch hserves, Nat.succ_le_succ hlength, ?_⟩
          rw [hresult, List.flatMap_cons, List.append_assoc]
        · exact .inr ⟨k + 1, e, .later hfetch hfails, Nat.succ_lt_succ hk, hresult⟩

theorem exists_collect_ok_iff {items : α → List β} :
    (∃ fuel, collect fetch items fuel n c acc = some (.ok result)) ↔
      ∃ pages, Serves fetch n c pages ∧ result = acc ++ pages.flatMap items := by
  constructor
  · rintro ⟨fuel, h⟩
    rcases served_of_collect h with ⟨pages, hserves, -, hresult⟩ | ⟨k, e, -, -, hresult⟩
    · exact ⟨pages, hserves, Except.ok.inj hresult⟩
    · cases hresult
  · rintro ⟨pages, hserves, rfl⟩
    exact ⟨pages.length, hserves.collect_eq (le_refl _)⟩

theorem exists_collect_error_iff {items : α → List β} :
    (∃ fuel, collect fetch items fuel n c acc = some (.error e)) ↔
      ∃ k, Fails fetch n c k e := by
  constructor
  · rintro ⟨fuel, h⟩
    rcases served_of_collect h with ⟨pages, -, -, hresult⟩ | ⟨k, e', hfails, -, hresult⟩
    · cases hresult
    · cases hresult
      exact ⟨k, hfails⟩
  · rintro ⟨k, hfails⟩
    exact ⟨k + 1, hfails.collect_eq (Nat.lt_succ_self k)⟩

/-- A service that keeps to one list of pages, with a cursor for each, serves the rest of it from
every cursor. -/
theorem serves_of_stable {pages : List α} {cursor : Nat → κ}
    (h : ∀ n i (hi : i < pages.length), fetch n (cursor i) =
      .ok (pages[i], if i + 1 < pages.length then some (cursor (i + 1)) else none))
    (n : Nat) (hi : i < pages.length) : Serves fetch n (cursor i) (pages.drop i) := by
  have hstep := h n i hi
  rw [List.drop_eq_getElem_cons hi]
  by_cases hlast : i + 1 < pages.length
  · rw [if_pos hlast] at hstep
    exact .more hstep (serves_of_stable h (n + 1) hlast)
  · rw [if_neg hlast] at hstep
    rw [List.drop_eq_nil_of_le (Nat.not_lt.1 hlast)]
    exact .last hstep

end Paging
