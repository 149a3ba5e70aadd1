import Gridshift.UpdateAttempts

namespace Gridshift
open LastWrite Simulation Sorting
set_option autoImplicit true

theorem UpdateEnv.writer_eq_some_iff {env : UpdateEnv κ Calendar} :
    env.writer k s = some s' ↔ ∃ spec, env.rewrite k s = .ok spec ∧ s' = some spec := by
  rw [UpdateEnv.writer]
  cases env.rewrite k s with
  | error e => simp [Except.toOption]
  | ok spec => simp [Except.toOption, eq_comm]

theorem UpdateEnv.writer_overwrites (env : UpdateEnv κ Calendar) : Overwrites env.writer := by
  intro a s s' h b
  obtain ⟨spec, hspec, rfl⟩ := UpdateEnv.writer_eq_some_iff.1 h
  obtain ⟨ts, -, hwrite⟩ := except_bind_eq_ok_iff.1 hspec
  rw [UpdateEnv.writer, UpdateEnv.writer, UpdateEnv.rewrite, UpdateEnv.rewrite,
    funext (rephase_rephase hwrite)]

/-- One schedule on the cluster, as a register that the attempts at it read and write. -/
def UpdateEnv.cell (env : UpdateEnv κ Calendar) (ref : ScheduleRef) (s : UpdateState κ Calendar) :
    Register.Cell κ (Option (ScheduleSpec Calendar)) where
  value := s.specs ref
  sent k := if env.target k = ref then (s.sent k).map some else none

variable {env : UpdateEnv κ Calendar}

theorem UpdateEnv.cell_start (specs : ScheduleRef → Option (ScheduleSpec Calendar))
    (ref : ScheduleRef) :
    env.cell ref (.start specs) = ⟨specs ref, fun _ => none⟩ := by
  simp only [UpdateEnv.cell, UpdateState.start, Option.map_none, ite_self]

theorem UpdateEnv.landedOn_eq_nil (hanswer : answer ≠ .carriedOut) :
    env.landedOn ref (.attempt k answer) = [] := by
  rw [UpdateEnv.landedOn.eq_def]
  split
  · rename_i h
    cases h
    exact absurd rfl hanswer
  · rfl

theorem UpdateEnv.landedOn_carriedOut (ref : ScheduleRef) (k : κ) :
    env.landedOn ref (.attempt k .carriedOut) = if env.target k = ref then [k] else [] := rfl

theorem UpdateEnv.mem_landedOn {es : List (UpdateEvent κ Calendar)}
    (he : UpdateEvent.attempt k .carriedOut ∈ es) :
    k ∈ es.flatMap (env.landedOn (env.target k)) := by
  refine List.mem_flatMap.2 ⟨_, he, ?_⟩
  rw [UpdateEnv.landedOn_carriedOut, if_pos rfl]
  exact List.mem_singleton.2 rfl

theorem UpdateEnv.target_of_mem_landedOn {es : List (UpdateEvent κ Calendar)}
    (hk : k ∈ es.flatMap (env.landedOn ref)) :
    env.target k = ref := by
  obtain ⟨e, -, hk⟩ := List.mem_flatMap.1 hk
  rw [UpdateEnv.landedOn.eq_def] at hk
  split at hk
  · split at hk
    · rename_i href
      rw [List.mem_singleton.1 hk]
      exact href
    · cases hk
  · cases hk

section Landed
variable [DecidableEq κ] {s s' : UpdateState κ Calendar}

theorem UpdateEnv.cell_request (hk : env.target k = ref) :
    env.cell ref { s.stand k p with sent := Function.update s.sent k (some spec) } =
      { env.cell ref s with
        sent := Function.update (env.cell ref s).sent k (some (some spec)) } := by
  simp only [UpdateEnv.cell, Register.Cell.mk.injEq]
  refine ⟨rfl, funext fun j => ?_⟩
  by_cases hj : j = k
  · subst hj
    rw [if_pos hk, Function.update_self, Function.update_self, Option.map_some]
  · rw [Function.update_of_ne hj, Function.update_of_ne hj]

theorem UpdateEnv.cell_request_of_ne (hk : env.target k ≠ ref) :
    env.cell ref { s.stand k p with sent := Function.update s.sent k (some spec) } =
      env.cell ref s := by
  simp only [UpdateEnv.cell, Register.Cell.mk.injEq]
  refine ⟨rfl, funext fun j => ?_⟩
  by_cases hj : j = k
  · subst hj
    rw [if_neg hk, if_neg hk]
  · rw [Function.update_of_ne hj]

variable (env) in
/-- What happens on the cluster is, for each schedule, an access to its register or nothing. -/
theorem UpdateEnv.simulates (ref : ScheduleRef) :
    Simulates env.step (Register.step env.writer) (env.cell ref) (UpdateEvent.SparesOwner ref)
      (env.landedOn ref) Register.landed := by
  intro e s t hspares hstep
  cases e with
  | owner ref' spec =>
    cases hstep
    have hne : ref ≠ ref' := by
      rintro rfl
      exact hspares spec rfl
    apply exists_run_stutter _ rfl
    simp only [UpdateEnv.cell, Function.update_of_ne hne]
  | attempt k answer =>
    cases UpdateEnv.advances_of_attempt hstep with
    | request hspec =>
      by_cases hk : env.target k = ref
      · apply exists_run_one (.read k)
        · rw [UpdateEnv.cell_request hk, Register.step, UpdateEnv.cell, ← hk,
            UpdateEnv.writer_eq_some_iff.2 ⟨_, hspec, rfl⟩, Option.map_some]
        · rfl
      · exact exists_run_stutter (UpdateEnv.cell_request_of_ne hk) rfl
    | land hsent =>
      by_cases hk : env.target k = ref
      · apply exists_run_one (.write k)
        · simp only [Register.step, UpdateEnv.cell, UpdateEnv.carryOut, hk, if_true, hsent,
            Option.map_some, Function.update_self]
        · rw [UpdateEnv.landedOn_carriedOut, if_pos hk, Register.landed]
      · apply exists_run_stutter
        · simp only [UpdateEnv.cell, UpdateEnv.carryOut, Function.update_of_ne (Ne.symm hk)]
        · rw [UpdateEnv.landedOn_carriedOut, if_neg hk]
    | confirm hcarried => exact exists_run_stutter rfl (UpdateEnv.landedOn_eq_nil (by simp))
    | stand hp hanswer => exact exists_run_stutter rfl (UpdateEnv.landedOn_eq_nil hanswer)

/-- An acknowledged update has landed, and was for a window on the clock. -/
structure UpdateEnv.Acknowledged (env : UpdateEnv κ Calendar) (es : List (UpdateEvent κ Calendar))
    (s : UpdateState κ Calendar) : Prop where
  instant : ∀ k, (s.sent k).isSome ∨ s.carriedOut k = true →
    ∃ ts, updateInstant env.tzdb (env.input k) = .ok ts
  carriedOut : ∀ k, s.carriedOut k = true → UpdateEvent.attempt k .carriedOut ∈ es
  updated : ∀ k, s.phase k = .ended (.ok .updated) → s.carriedOut k = true

theorem UpdateEnv.Acknowledged.stand (h : env.Acknowledged es s) (e : UpdateEvent κ Calendar)
    (hp : p = .ended (.ok .updated) → s.carriedOut k = true) :
    env.Acknowledged (es ++ [e]) (s.stand k p) := by
  refine ⟨h.instant, fun j hj => List.mem_append_left _ (h.carriedOut j hj), ?_⟩
  intro j hj
  change Function.update s.phase k p j = _ at hj
  by_cases hjk : j = k
  · subst hjk
    rw [Function.update_self] at hj
    exact hp hj
  · rw [Function.update_of_ne hjk] at hj
    exact h.updated j hj

theorem UpdateEnv.Acknowledged.request (h : env.Acknowledged es s) (e : UpdateEvent κ Calendar)
    (hspec : env.rewrite k (s.specs (env.target k)) = .ok spec) :
    env.Acknowledged (es ++ [e])
      { s.stand k .awaiting with sent := Function.update s.sent k (some spec) } := by
  have hstand := h.stand e (k := k) (p := .awaiting) (by simp)
  refine ⟨?_, hstand.carriedOut, hstand.updated⟩
  intro j hj
  by_cases hjk : j = k
  · obtain ⟨ts, hts, -⟩ := except_bind_eq_ok_iff.1 hspec
    exact ⟨ts, hjk ▸ hts⟩
  · apply h.instant j
    change (Function.update s.sent k (some spec) j).isSome ∨ s.carriedOut j = true at hj
    rwa [Function.update_of_ne hjk] at hj

theorem UpdateEnv.Acknowledged.land (h : env.Acknowledged es s) (hsent : s.sent k = some spec) :
    env.Acknowledged (es ++ [.attempt k .carriedOut]) (env.carryOut k s spec) := by
  refine ⟨?_, ?_, ?_⟩
  · intro j hj
    by_cases hjk : j = k
    · rw [hjk]
      exact h.instant k (.inl (by rw [hsent, Option.isSome_some]))
    · apply h.instant j
      change (s.sent j).isSome ∨ Function.update s.carriedOut k true j = true at hj
      rwa [Function.update_of_ne hjk] at hj
  · intro j hj
    change Function.update s.carriedOut k true j = true at hj
    by_cases hjk : j = k
    · rw [hjk]
      exact List.mem_append_right _ (List.mem_singleton.2 rfl)
    · rw [Function.update_of_ne hjk] at hj
      exact List.mem_append_left _ (h.carriedOut j hj)
  · intro j hj
    change Function.update s.carriedOut k true j = true
    by_cases hjk : j = k
    · rw [hjk, Function.update_self]
    · rw [Function.update_of_ne hjk]
      exact h.updated j hj

theorem UpdateEnv.Acknowledged.step (h : env.Acknowledged es s) (hstep : env.step e s = some s') :
    env.Acknowledged (es ++ [e]) s' := by
  cases e with
  | owner ref spec =>
    cases hstep
    exact ⟨h.instant, fun k hk => List.mem_append_left _ (h.carriedOut k hk), h.updated⟩
  | attempt k answer =>
    cases UpdateEnv.advances_of_attempt hstep with
    | request hspec => exact h.request _ hspec
    | land hsent => exact h.land hsent
    | confirm hcarried => exact h.stand _ fun _ => hcarried
    | stand hp hanswer => exact h.stand _ fun he => absurd he hp

theorem UpdateEnv.acknowledged_of_run {specs : ScheduleRef → Option (ScheduleSpec Calendar)}
    (h : Machine.run env.step es (.start specs) = some s) : env.Acknowledged es s := by
  apply Machine.run_induction (P := env.Acknowledged) h
  · refine ⟨?_, fun k hk => (Bool.false_ne_true hk).elim, by intro k hk; cases hk⟩
    intro k hk
    rcases hk with hk | hk
    · cases hk
    · cases hk
  · intro es e t u _ ht hstep
    exact ht.step hstep

/-- What the last request to land makes of the spec that was there before any. -/
theorem UpdateEnv.linear_of_run {specs : ScheduleRef → Option (ScheduleSpec Calendar)}
    (h : Machine.run env.step es (.start specs) = some s)
    (howner : ∀ spec, UpdateEvent.owner ref spec ∉ es) :
    Register.Linear env.writer (specs ref) (es.flatMap (env.landedOn ref)) (env.cell ref s) := by
  have hspares : ∀ e ∈ es, UpdateEvent.SparesOwner ref e := by
    rintro e he spec rfl
    exact howner spec he
  obtain ⟨ds, hrun, hlanded⟩ := (env.simulates ref).run hspares h
  rw [UpdateEnv.cell_start] at hrun
  rw [← hlanded]
  exact Register.linear_of_run env.writer_overwrites hrun

theorem UpdateEnv.specs_of_nil {specs : ScheduleRef → Option (ScheduleSpec Calendar)}
    (h : Machine.run env.step es (.start specs) = some s)
    (howner : ∀ spec, UpdateEvent.owner ref spec ∉ es)
    (hnil : es.flatMap (env.landedOn ref) = []) : s.specs ref = specs ref := by
  have hvalue := (UpdateEnv.linear_of_run h howner).value
  rw [hnil] at hvalue
  exact hvalue

/-- The last attempt to land decides the spec, as if it had been made alone. -/
theorem UpdateEnv.rewrite_of_getLast? {specs : ScheduleRef → Option (ScheduleSpec Calendar)}
    (h : Machine.run env.step es (.start specs) = some s)
    (howner : ∀ spec, UpdateEvent.owner ref spec ∉ es)
    (hk : (es.flatMap (env.landedOn ref)).getLast? = some k) :
    env.target k = ref ∧ ∃ spec, env.rewrite k (specs ref) = .ok spec ∧
      s.specs ref = some spec := by
  refine ⟨UpdateEnv.target_of_mem_landedOn (List.mem_of_getLast? hk), ?_⟩
  exact UpdateEnv.writer_eq_some_iff.1
    ((UpdateEnv.linear_of_run h howner).value_of_getLast? env.writer_overwrites hk)

theorem UpdateEnv.landed_of_updated {specs : ScheduleRef → Option (ScheduleSpec Calendar)}
    (h : Machine.run env.step es (.start specs) = some s)
    (hk : s.phase k = .ended (.ok .updated)) :
    k ∈ es.flatMap (env.landedOn (env.target k)) := by
  have hack := UpdateEnv.acknowledged_of_run h
  exact UpdateEnv.mem_landedOn (hack.carriedOut k (hack.updated k hk))

end Landed

/-- However the attempts of any number of updates interleave, and whatever answers are lost, a
schedule that its owners leave alone ends as if the attempts that landed on it had been made one
after another. So it holds what the last of them makes of its first spec, and an acknowledged
update is among them. -/
theorem attempts_linearize [DecidableEq κ] (env : UpdateEnv κ Calendar)
    (specs : ScheduleRef → Option (ScheduleSpec Calendar)) (es : List (UpdateEvent κ Calendar))
    (s : UpdateState κ Calendar) (ref : ScheduleRef)
    (h : Machine.run env.step es (.start specs) = some s)
    (howner : ∀ spec, UpdateEvent.owner ref spec ∉ es) :
    s.specs ref = LastWrite.run env.writer (specs ref) (es.flatMap (env.landedOn ref)) ∧
    ((es.flatMap (env.landedOn ref)) = [] → s.specs ref = specs ref) ∧
    (∀ k, (es.flatMap (env.landedOn ref)).getLast? = some k →
      env.target k = ref ∧ ∃ spec, env.rewrite k (specs ref) = .ok spec ∧
        s.specs ref = some spec) ∧
    ∀ k, env.target k = ref → s.phase k = .ended (.ok .updated) →
      k ∈ es.flatMap (env.landedOn ref) := by
  refine ⟨(UpdateEnv.linear_of_run h howner).value, UpdateEnv.specs_of_nil h howner, ?_, ?_⟩
  · exact fun k hk => UpdateEnv.rewrite_of_getLast? h howner hk
  · rintro k rfl hk
    exact UpdateEnv.landed_of_updated h hk

section Sample

/-- Two attempts at one update, of which the first times out after it has been carried out. -/
def retried : UpdateEnv Nat String where
  sdk := .plain String
  tzdb _ := some (WallClock.Zone.fixed 0)
  input _ := ⟨"default", "backup", ⟨19724, 2, 0⟩, "UTC", 86400⟩

def dailyAtNoon : ScheduleSpec String :=
  ⟨[⟨some (ofSecs 86400), some (ofSecs 43200)⟩], [], [], none, none, none, "Europe/Paris"⟩

/-- Both attempts read the spec before either has changed it, and the first lands once more after
the second was acknowledged. -/
def overlapping : List (UpdateEvent Nat String) :=
  [.attempt 0 (.described (.ok ()) (.ok ())), .attempt 1 (.described (.ok ()) (.ok ())),
    .attempt 0 .carriedOut, .attempt 0 (.answered (.error (.other "timed out"))),
    .attempt 1 .carriedOut, .attempt 1 (.answered (.ok ())), .attempt 0 .carriedOut]

theorem attempts_linearize_overlapping :
    ∃ s, Machine.run retried.step overlapping (.start fun _ => some dailyAtNoon) = some s ∧
      ∃ spec, retried.rewrite 0 (some dailyAtNoon) = .ok spec ∧
        s.specs ⟨"default", "backup"⟩ = some spec := by
  refine ⟨_, rfl, ?_⟩
  have howner (spec : Option (ScheduleSpec String)) :
      UpdateEvent.owner ⟨"default", "backup"⟩ spec ∉ overlapping := by simp [overlapping]
  exact ((attempts_linearize retried (fun _ => some dailyAtNoon) overlapping _
    ⟨"default", "backup"⟩ rfl howner).2.2.1 0 rfl).2

end Sample

end Gridshift
