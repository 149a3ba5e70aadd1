import Mathlib

namespace IntervalGrid
set_option autoImplicit true

/-- The instants `n * every + phase` at which a periodic timer goes off. -/
def OnGrid (every phase t : Int) : Prop := ∃ n : Int, t = n * every + phase

/-- The first grid instant strictly after `now`. -/
def nextAfter (every phase now : Int) : Int := now + every - (now - phase) % every

def lastUpTo (every phase now : Int) : Int := now - (now - phase) % every

theorem onGrid_iff_dvd : OnGrid every phase t ↔ every ∣ t - phase := by
  constructor
  · rintro ⟨n, rfl⟩
    exact ⟨n, by ring⟩
  · rintro ⟨n, hn⟩
    exact ⟨n, by linarith⟩

instance (every phase t : Int) : Decidable (OnGrid every phase t) :=
  decidable_of_iff _ onGrid_iff_dvd.symm

theorem OnGrid.self (every phase : Int) : OnGrid every phase phase := ⟨0, by ring⟩

theorem OnGrid.add_every (h : OnGrid every phase t) : OnGrid every phase (t + every) := by
  obtain ⟨n, rfl⟩ := h
  exact ⟨n + 1, by ring⟩

theorem OnGrid.dvd_sub (h : OnGrid every phase t) (h' : OnGrid every phase t') :
    every ∣ t - t' := by
  obtain ⟨n, rfl⟩ := h
  obtain ⟨m, rfl⟩ := h'
  exact ⟨n - m, by ring⟩

theorem onGrid_emod : OnGrid every (u % every) t ↔ OnGrid every u t := by
  rw [onGrid_iff_dvd, onGrid_iff_dvd, show t - u % every = t - u + every * (u / every) by
    rw [Int.emod_def]; ring]
  exact (Int.dvd_add_left (Int.dvd_mul_right _ _))

theorem lt_nextAfter (h : 0 < every) (phase now : Int) : now < nextAfter every phase now := by
  have hr := Int.emod_lt_of_pos (now - phase) h
  simp only [nextAfter]
  omega

theorem nextAfter_le (h : 0 < every) (phase now : Int) :
    nextAfter every phase now ≤ now + every := by
  have hr := Int.emod_nonneg (now - phase) (Int.ne_of_gt h)
  simp only [nextAfter]
  omega

theorem onGrid_nextAfter (every phase now : Int) :
    OnGrid every phase (nextAfter every phase now) := by
  refine ⟨(now - phase) / every + 1, ?_⟩
  rw [nextAfter, Int.emod_def]
  ring

theorem lastUpTo_add_every (every phase now : Int) :
    lastUpTo every phase now + every = nextAfter every phase now := by
  rw [lastUpTo, nextAfter]
  ring

theorem OnGrid.eq_of_lt (h : OnGrid every phase t) (h' : OnGrid every phase t')
    (hl : t - t' < every) (hr : t' - t < every) : t = t' := by
  have h0 : t - t' = 0 := Int.eq_zero_of_abs_lt_dvd (h.dvd_sub h') (abs_lt.2 (by omega))
  omega

theorem OnGrid.eq_nextAfter (h : OnGrid every phase t) (hl : now < t) (hr : t ≤ now + every) :
    nextAfter every phase now = t := by
  have he : 0 < every := by omega
  have h1 := lt_nextAfter he phase now
  have h2 := nextAfter_le he phase now
  exact (onGrid_nextAfter every phase now).eq_of_lt h (by omega) (by omega)

theorem nextAfter_le_of_onGrid (he : 0 < every) (h : OnGrid every phase t) (hl : now < t) :
    nextAfter every phase now ≤ t := by
  have h2 := nextAfter_le he phase now
  by_contra hlt
  have := h.eq_nextAfter hl (by omega)
  omega

theorem isLeast_nextAfter (he : 0 < every) (phase now : Int) :
    IsLeast {t | now < t ∧ OnGrid every phase t} (nextAfter every phase now) :=
  ⟨⟨lt_nextAfter he phase now, onGrid_nextAfter every phase now⟩,
    fun _ ht => nextAfter_le_of_onGrid he ht.2 ht.1⟩

theorem nextAfter_emod (every u now : Int) :
    nextAfter every (u % every) now = nextAfter every u now := by
  rw [nextAfter, nextAfter, Int.sub_emod_emod]

theorem OnGrid.nextAfter_self (he : 0 < every) (h : OnGrid every phase t) :
    nextAfter every phase t = t + every :=
  h.add_every.eq_nextAfter (by omega) (by omega)

/-- A grid instant already reached is at most the last one. -/
theorem OnGrid.le_lastUpTo (he : 0 < every) (h : OnGrid every phase t) (hle : t ≤ now) :
    t ≤ lastUpTo every phase now := by
  have hnext := lt_nextAfter he phase now
  have hadd := lastUpTo_add_every every phase now
  by_contra hlt
  have heq : t = nextAfter every phase now :=
    h.eq_of_lt (onGrid_nextAfter every phase now) (by omega) (by omega)
  omega

/-- The grid of an instant within a period of now last came by a period before that instant, or
at the instant itself once it has passed. -/
theorem lastUpTo_of_close {every u now : Int} (hclose : u ≤ now + every)
    (hwithin : now < u + every) :
    lastUpTo every u now = if now < u then u - every else u := by
  have hadd := lastUpTo_add_every every u now
  split
  · rename_i hahead
    have := (OnGrid.self every u).eq_nextAfter hahead hclose
    omega
  · have := (OnGrid.self every u).add_every.eq_nextAfter hwithin (by omega)
    omega

theorem nextAfter_of_lt (he : 0 < every) (hle : now ≤ now')
    (hlt : now' < nextAfter every phase now) :
    nextAfter every phase now' = nextAfter every phase now := by
  have h2 := nextAfter_le he phase now
  exact (onGrid_nextAfter every phase now).eq_nextAfter hlt (by omega)

theorem nextAfter_succ (he : 0 < every) (h : ¬ OnGrid every phase (now + 1)) :
    nextAfter every phase (now + 1) = nextAfter every phase now := by
  have h1 := lt_nextAfter he phase now
  have hne : nextAfter every phase now ≠ now + 1 := fun h0 => h (h0 ▸ onGrid_nextAfter _ _ _)
  exact nextAfter_of_lt he (by omega) (by omega)

theorem nextAfter_eq_succ (he : 0 < every) (h : OnGrid every phase (now + 1)) :
    nextAfter every phase now = now + 1 :=
  h.eq_nextAfter (by omega) (by omega)

theorem nextAfter_eq_sub (he : 0 < every) (u now : Int) :
    nextAfter every u now = u - every * ((u - now - 1) / every) := by
  have hdiv := Int.mul_ediv_add_emod (u - now - 1) every
  have h0 := Int.emod_nonneg (u - now - 1) (Int.ne_of_gt he)
  have hlt := Int.emod_lt_of_pos (u - now - 1) he
  have hgrid : OnGrid every u (u - every * ((u - now - 1) / every)) :=
    ⟨-((u - now - 1) / every), by ring⟩
  exact hgrid.eq_nextAfter (by omega) (by omega)

theorem nextAfter_eq_self_iff (he : 0 < every) (hlt : now < u) :
    nextAfter every u now = u ↔ u - now ≤ every := by
  constructor
  · intro h
    have hle := nextAfter_le he u now
    omega
  · intro h
    exact (OnGrid.self every u).eq_nextAfter hlt (by omega)

/-- The first instant after `now` on any of several grids is the least of their first instants. -/
theorem isLeast_of_min? {everys : List Int} (hpos : ∀ every ∈ everys, 0 < every)
    (h : (everys.map fun every => nextAfter every u now).min? = some first) :
    IsLeast {t | now < t ∧ ∃ every ∈ everys, OnGrid every u t} first := by
  obtain ⟨hmem, hle⟩ := List.min?_eq_some_iff.1 h
  obtain ⟨every, hevery, rfl⟩ := List.mem_map.1 hmem
  refine ⟨⟨lt_nextAfter (hpos every hevery) u now, every, hevery, onGrid_nextAfter _ _ _⟩, ?_⟩
  rintro t ⟨hlt, every', hevery', hgrid⟩
  exact (hle _ (List.mem_map_of_mem hevery')).trans
    (nextAfter_le_of_onGrid (hpos every' hevery') hgrid hlt)

theorem min?_nextAfter_eq_self_iff {everys : List Int} (hpos : ∀ every ∈ everys, 0 < every)
    (hlt : now < u)
    (h : (everys.map fun every => nextAfter every u now).min? = some first) :
    first = u ↔ ∀ every ∈ everys, u - now ≤ every := by
  obtain ⟨hmem, hle⟩ := List.min?_eq_some_iff.1 h
  constructor
  · intro hfirst every hevery
    rw [← nextAfter_eq_self_iff (hpos every hevery) hlt]
    have hge : first ≤ nextAfter every u now := hle _ (List.mem_map_of_mem hevery)
    have hself := nextAfter_le_of_onGrid (hpos every hevery) (OnGrid.self every u) hlt
    omega
  · intro hall
    obtain ⟨every, hevery, rfl⟩ := List.mem_map.1 hmem
    exact (nextAfter_eq_self_iff (hpos every hevery) hlt).2 (hall every hevery)

end IntervalGrid
