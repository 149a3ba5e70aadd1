import Mathlib

namespace WallClock
set_option autoImplicit true

/-- A time zone is the offset of local time at every instant, in seconds east of UTC.
Only the offsets listed are ever in use. -/
structure Zone where
  offset : Int → Int
  offsets : List Int
  offset_mem : ∀ u, offset u ∈ offsets

/-- The wall-clock reading at an instant, in seconds since local 1970-01-01T00:00:00. -/
def Zone.toLocal (tz : Zone) (u : Int) : Int := u + tz.offset u

/-- The instants at which a reading is shown: none in a gap, several in a fold. -/
def Zone.fromLocal (tz : Zone) (l : Int) : List Int :=
  (tz.offsets.map fun o => l - o).filter fun u => tz.toLocal u = l

/-- The first of the instants that show a reading. -/
def Zone.earliest (tz : Zone) (l : Int) : Option Int := (tz.fromLocal l).min?

theorem Zone.mem_fromLocal (tz : Zone) : u ∈ tz.fromLocal l ↔ tz.toLocal u = l := by
  simp only [fromLocal, List.mem_filter, List.mem_map, decide_eq_true_eq, and_iff_right_iff_imp]
  intro h
  refine ⟨tz.offset u, tz.offset_mem u, ?_⟩
  simp only [toLocal] at h
  omega

theorem Zone.earliest_eq_some_iff (tz : Zone) :
    tz.earliest l = some u ↔ tz.toLocal u = l ∧ ∀ v, tz.toLocal v = l → u ≤ v := by
  simp only [earliest, List.min?_eq_some_iff, mem_fromLocal]

theorem Zone.earliest_eq_none_iff (tz : Zone) :
    tz.earliest l = none ↔ ∀ u, tz.toLocal u ≠ l := by
  simp only [earliest, List.min?_eq_none_iff, List.eq_nil_iff_forall_not_mem, mem_fromLocal, ne_eq]

/-- The round trip is the identity exactly at the first showing of a reading. -/
theorem Zone.earliest_toLocal_iff (tz : Zone) (u : Int) :
    tz.earliest (tz.toLocal u) = some u ↔ ∀ v < u, tz.toLocal v ≠ tz.toLocal u := by
  rw [earliest_eq_some_iff]
  constructor
  · rintro ⟨-, h⟩ v hv he
    exact absurd (h v he) (Int.not_le.2 hv)
  · intro h
    refine ⟨rfl, fun v he => ?_⟩
    by_contra hv
    exact h v (Int.not_le.1 hv) he

/-- Readings from `lo` up to `hi` belong to one offset: no transition touches them. -/
def Zone.Steady (tz : Zone) (lo hi o : Int) : Prop :=
  ∀ u, (lo ≤ u + o ∧ u + o < hi) ∨ (lo ≤ tz.toLocal u ∧ tz.toLocal u < hi) → tz.offset u = o

theorem Zone.Steady.earliest (h : tz.Steady lo hi o) (hl : lo ≤ l) (hh : l < hi) :
    Zone.earliest tz l = some (l - o) := by
  rw [earliest_eq_some_iff]
  have ho : tz.offset (l - o) = o := h _ (.inl (by omega))
  refine ⟨by simp only [toLocal, ho]; omega, fun v hv => ?_⟩
  have hv' : tz.offset v = o := h v (.inr (by omega))
  simp only [toLocal, hv'] at hv
  omega

def Zone.fixed (o : Int) : Zone := ⟨fun _ => o, [o], fun _ => List.mem_singleton.2 rfl⟩

theorem Zone.fixed_steady (o lo hi : Int) : (Zone.fixed o).Steady lo hi o := fun _ _ => rfl

def Zone.summer (o start stop : Int) : Zone where
  offset u := if start ≤ u ∧ u < stop then o + 3600 else o
  offsets := [o, o + 3600]
  offset_mem u := by split <;> simp

end WallClock
