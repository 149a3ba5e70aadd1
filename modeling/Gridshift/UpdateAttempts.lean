import Gridshift.Register
import Gridshift.RephaseCompose
import Gridshift.Simulation

namespace Gridshift
open Machine Sorting
set_option autoImplicit true

/-- The instant that an update takes its window for. -/
def updateInstant (tzdb : String → Option Tz) (input : UpdateWindowsInput) : Except String Nat := do
  let tz ← (tzdb input.timezone).elim (.error s!"invalid timezone: {debugStr input.timezone}") .ok
  let ndt ← (andHmsOpt input.window.date input.window.hour input.window.minute).elim
    (.error s!"invalid window {padTwo input.window.hour}:{padTwo input.window.minute}") .ok
  return utcTs tz ndt

/-- The outcome when one of the cluster's answers is an error. -/
def updateFailed : ScheduleError → Except String UpdateOutcome
  | .rpc .notFound _ => .ok (.skipped "schedule no longer exists")
  | .rpc .permissionDenied _ => .ok (.skipped "permission denied updating schedule")
  | e => .error e.message

inductive UpdatePhase where
  | called
  | awaiting
  | ended (result : Except String UpdateOutcome)
  | died

/-- What befalls an attempt: its client is made and its schedule described, the cluster carries
its request out, it is answered, or its worker dies. -/
inductive UpdateAnswer where
  | described (client : Except String Unit) (answer : Except ScheduleError Unit)
  | carriedOut
  | answered (answer : Except ScheduleError Unit)
  | died

/-- A schedule's spec is changed by attempts, and by those who own the schedule. -/
inductive UpdateEvent (κ Calendar : Type) where
  | attempt (k : κ) (answer : UpdateAnswer)
  | owner (ref : ScheduleRef) (spec : Option (ScheduleSpec Calendar))

/-- The specs on the cluster, and the attempts at updating them: what each has sent, whether the
cluster has carried that out, and where it stands. -/
structure UpdateState (κ Calendar : Type) where
  specs : ScheduleRef → Option (ScheduleSpec Calendar)
  sent : κ → Option (ScheduleSpec Calendar)
  carriedOut : κ → Bool
  phase : κ → UpdatePhase

structure UpdateEnv (κ Calendar : Type) where
  sdk : Sdk Calendar
  tzdb : String → Option Tz
  input : κ → UpdateWindowsInput

def UpdateState.start (specs : ScheduleRef → Option (ScheduleSpec Calendar)) :
    UpdateState κ Calendar :=
  ⟨specs, fun _ => none, fun _ => false, fun _ => .called⟩

def UpdateEnv.target (env : UpdateEnv κ Calendar) (k : κ) : ScheduleRef :=
  ⟨(env.input k).namespace, (env.input k).scheduleId⟩

/-- What an attempt makes of a spec that it finds. -/
def UpdateEnv.rewrite (env : UpdateEnv κ Calendar) (k : κ)
    (spec : Option (ScheduleSpec Calendar)) : Except String (ScheduleSpec Calendar) := do
  let ts ← updateInstant env.tzdb (env.input k)
  rephase env.sdk ts spec

/-- The same as a writer: a failed one writes nothing. -/
def UpdateEnv.writer (env : UpdateEnv κ Calendar) (k : κ)
    (spec : Option (ScheduleSpec Calendar)) : Option (Option (ScheduleSpec Calendar)) :=
  (env.rewrite k spec).toOption.map some

section Attempts
variable [DecidableEq κ]

def UpdateState.stand (s : UpdateState κ Calendar) (k : κ) (p : UpdatePhase) :
    UpdateState κ Calendar :=
  { s with phase := Function.update s.phase k p }

/-- The activity up to its request: the closure is applied to the spec that was described. -/
def UpdateEnv.begin (env : UpdateEnv κ Calendar) (k : κ) (s : UpdateState κ Calendar)
    (client : Except String Unit) (answer : Except ScheduleError Unit) :
    UpdateState κ Calendar :=
  match client, updateInstant env.tzdb (env.input k), answer with
  | .error e, _, _ => s.stand k (.ended (.error e))
  | .ok (), .error e, _ => s.stand k (.ended (.error e))
  | .ok (), .ok _, .error e => s.stand k (.ended (updateFailed e))
  | .ok (), .ok ts, .ok () =>
    match rephase env.sdk ts (s.specs (env.target k)) with
    | .error e => s.stand k (.ended (.error e))
    | .ok spec => { s.stand k .awaiting with sent := Function.update s.sent k (some spec) }

/-- The cluster carries a request out, once or again, and however late. -/
def UpdateEnv.carryOut (env : UpdateEnv κ Calendar) (k : κ) (s : UpdateState κ Calendar)
    (spec : ScheduleSpec Calendar) : UpdateState κ Calendar :=
  { s with
    specs := Function.update s.specs (env.target k) (some spec)
    carriedOut := Function.update s.carriedOut k true }

/-- One event of an attempt; `none` where it cannot come. An update is acknowledged only after it
has been carried out, while an error says nothing of that. -/
def UpdateEnv.attempt (env : UpdateEnv κ Calendar) (k : κ) (s : UpdateState κ Calendar) :
    UpdateAnswer → UpdatePhase → Option (UpdateState κ Calendar)
  | .described client answer, .called => some (env.begin k s client answer)
  | .carriedOut, _ => (s.sent k).map (env.carryOut k s)
  | .answered (.ok ()), .awaiting =>
    if s.carriedOut k then some (s.stand k (.ended (.ok .updated))) else none
  | .answered (.error e), .awaiting => some (s.stand k (.ended (updateFailed e)))
  | .died, .called => some (s.stand k .died)
  | .died, .awaiting => some (s.stand k .died)
  | _, _ => none

def UpdateEnv.step (env : UpdateEnv κ Calendar) :
    UpdateEvent κ Calendar → UpdateState κ Calendar → Option (UpdateState κ Calendar)
  | .attempt k answer, s => env.attempt k s answer (s.phase k)
  | .owner ref spec, s => some { s with specs := Function.update s.specs ref spec }

/-- The attempts of an event that changed a schedule. -/
def UpdateEnv.landedOn (env : UpdateEnv κ Calendar) (ref : ScheduleRef) :
    UpdateEvent κ Calendar → List κ
  | .attempt k .carriedOut => if env.target k = ref then [k] else []
  | _ => []

/-- The owners of a schedule leave it alone. -/
def UpdateEvent.SparesOwner (ref : ScheduleRef) (e : UpdateEvent κ Calendar) : Prop :=
  ∀ spec, e ≠ .owner ref spec

/-- What an event of an attempt does: it begins a request, a request lands, or only its own
standing changes. -/
inductive UpdateEnv.Advances (env : UpdateEnv κ Calendar) (k : κ) (s : UpdateState κ Calendar) :
    UpdateAnswer → UpdateState κ Calendar → Prop where
  | request (hspec : env.rewrite k (s.specs (env.target k)) = .ok spec) :
    Advances env k s (.described client answer)
      { s.stand k .awaiting with sent := Function.update s.sent k (some spec) }
  | land (hsent : s.sent k = some spec) : Advances env k s .carriedOut (env.carryOut k s spec)
  | confirm (hcarried : s.carriedOut k = true) :
    Advances env k s (.answered (.ok ())) (s.stand k (.ended (.ok .updated)))
  | stand (hp : p ≠ .ended (.ok .updated)) (hanswer : answer ≠ .carriedOut) :
    Advances env k s answer (s.stand k p)

theorem updateFailed_ne (e : ScheduleError) :
    UpdatePhase.ended (updateFailed e) ≠ .ended (.ok .updated) := by
  rw [updateFailed.eq_def]
  split
  · simp
  · simp
  · simp

theorem UpdateEnv.advances_begin (env : UpdateEnv κ Calendar) (k : κ) (s : UpdateState κ Calendar)
    (client : Except String Unit) (answer : Except ScheduleError Unit) :
    env.Advances k s (.described client answer) (env.begin k s client answer) := by
  have herror (e : String) : UpdatePhase.ended (.error e) ≠ .ended (.ok .updated) := by simp
  rw [UpdateEnv.begin.eq_def]
  split
  · exact .stand (herror _) (by simp)
  · exact .stand (herror _) (by simp)
  · exact .stand (updateFailed_ne _) (by simp)
  · rename_i ts hts
    cases hspec : rephase env.sdk ts (s.specs (env.target k)) with
    | error e => exact .stand (herror e) (by simp)
    | ok spec => exact .request (by rw [UpdateEnv.rewrite, hts]; exact hspec)

theorem UpdateEnv.advances_of_attempt {env : UpdateEnv κ Calendar} {s s' : UpdateState κ Calendar}
    (h : env.attempt k s answer p = some s') : env.Advances k s answer s' := by
  rw [UpdateEnv.attempt.eq_def] at h
  split at h
  · cases h
    exact env.advances_begin k s _ _
  · obtain ⟨spec, hsent, rfl⟩ := Option.map_eq_some_iff.1 h
    exact .land hsent
  · split at h
    · rename_i hcarried
      cases h
      exact .confirm hcarried
    · cases h
  · cases h
    exact .stand (updateFailed_ne _) (by simp)
  · cases h
    exact .stand (by simp) (by simp)
  · cases h
    exact .stand (by simp) (by simp)
  · cases h

end Attempts

/-- The activity, with the reading of its window told apart from its calls to the cluster. -/
theorem updateScheduleWindows_eq_bind (sdk : Sdk Calendar) (cluster : Cluster Calendar)
    (tzdb : String → Option Tz) (input : UpdateWindowsInput) :
    updateScheduleWindows sdk cluster tzdb input = (do
      cluster.clientFor input.namespace
      let ts ← updateInstant tzdb input
      match cluster.describe ⟨input.namespace, input.scheduleId⟩ with
      | .error e => (updateFailed e).map fun outcome => (outcome, none)
      | .ok desc =>
        let spec ← rephase sdk ts desc.spec
        match cluster.accept ⟨input.namespace, input.scheduleId⟩ spec with
        | .error e => (updateFailed e).map fun outcome => (outcome, none)
        | .ok () => .ok (.updated, some spec)) := by
  simp only [updateScheduleWindows, updateInstant]
  cases cluster.clientFor input.namespace with
  | error e => rfl
  | ok u =>
    cases tzdb input.timezone with
    | none => rfl
    | some tz =>
      cases andHmsOpt input.window.date input.window.hour input.window.minute with
      | none => rfl
      | some ndt =>
        change (match cluster.describe ⟨input.namespace, input.scheduleId⟩ with
          | .error e => _ | .ok desc => _) = (match cluster.describe _ with
          | .error e => _ | .ok desc => _)
        cases cluster.describe ⟨input.namespace, input.scheduleId⟩ with
        | error e =>
          cases e with
          | rpc code message =>
            cases code with
            | _ => rfl
          | other message => rfl
        | ok desc =>
          apply congrArg (rephase sdk (utcTs tz ndt) desc.spec >>= ·)
          funext spec
          cases cluster.accept ⟨input.namespace, input.scheduleId⟩ spec with
          | error e =>
            cases e with
            | rpc code message =>
              cases code with
              | _ => rfl
            | other message => rfl
          | ok u => rfl

/-- A run of one attempt alone ends it with an outcome, and leaves the spec that goes with that. -/
def UpdateEnv.EndsAs [DecidableEq κ] (env : UpdateEnv κ Calendar) (k : κ)
    (s : UpdateState κ Calendar)
    (result : Except String (UpdateOutcome × Option (ScheduleSpec Calendar))) : Prop :=
  ∃ (answers : List UpdateAnswer) (s' : UpdateState κ Calendar),
    Machine.run env.step (answers.map (UpdateEvent.attempt k)) s = some s' ∧
    s'.phase k = .ended (result.map Prod.fst) ∧
    s'.specs (env.target k) =
      ((result.toOption.bind Prod.snd).map some).getD (s.specs (env.target k))

section Alone
variable [DecidableEq κ] {env : UpdateEnv κ Calendar} {s : UpdateState κ Calendar} {k : κ}

@[simp] theorem UpdateState.stand_phase_self (s : UpdateState κ Calendar) (k : κ)
    (p : UpdatePhase) : (s.stand k p).phase k = p := Function.update_self ..

theorem UpdateEnv.endsAs_of_run (answers : List UpdateAnswer) (t : UpdateState κ Calendar)
    (hrun : Machine.run env.step (answers.map (UpdateEvent.attempt k)) s =
      some (t.stand k (.ended result))) (hspecs : t.specs = s.specs) :
    env.EndsAs k s (result.map fun outcome => (outcome, none)) := by
  refine ⟨answers, t.stand k (.ended result), hrun, ?_, ?_⟩
  · rw [UpdateState.stand_phase_self]
    cases result with
    | error e => rfl
    | ok outcome => rfl
  · change t.specs (env.target k) = _
    rw [hspecs]
    cases result with
    | error e => rfl
    | ok outcome => rfl

/-- An attempt sends its request, and the cluster carries it out. -/
def landed (k : κ) : List (UpdateEvent κ Calendar) :=
  [.attempt k (.described (.ok ()) (.ok ())), .attempt k .carriedOut]

theorem UpdateEnv.begin_of_rewrite
    (hspec : env.rewrite k (s.specs (env.target k)) = .ok spec) :
    env.begin k s (.ok ()) (.ok ()) =
      { s.stand k .awaiting with sent := Function.update s.sent k (some spec) } := by
  obtain ⟨ts, hts, hwrite⟩ := except_bind_eq_ok_iff.1 hspec
  simp only [UpdateEnv.begin, hts, hwrite]

theorem UpdateEnv.step_confirmed (hphase : s.phase k = .awaiting)
    (hcarried : s.carriedOut k = true) :
    env.step (.attempt k (.answered (.ok ()))) s = some (s.stand k (.ended (.ok .updated))) := by
  simp only [UpdateEnv.step, hphase, UpdateEnv.attempt, hcarried, if_true]

variable (hphase : s.phase k = .called)
include hphase

theorem UpdateEnv.step_described (client : Except String Unit) (answer : Except ScheduleError Unit) :
    env.step (.attempt k (.described client answer)) s = some (env.begin k s client answer) := by
  simp only [UpdateEnv.step, hphase, UpdateEnv.attempt]

theorem UpdateEnv.endsAs_of_begin (client : Except String Unit) (answer : Except ScheduleError Unit)
    (result : Except String UpdateOutcome)
    (h : env.begin k s client answer = s.stand k (.ended result)) :
    env.EndsAs k s (result.map fun outcome => (outcome, none)) := by
  apply UpdateEnv.endsAs_of_run [.described client answer] s _ rfl
  rw [← h]
  exact (Machine.run_cons_iff env.step).2 ⟨_, UpdateEnv.step_described hphase _ _, rfl⟩

section Request
variable (h : env.begin k s (.ok ()) (.ok ()) =
  { s.stand k .awaiting with sent := Function.update s.sent k (some spec) })
include h

omit hphase in
theorem UpdateEnv.begin_awaiting : (env.begin k s (.ok ()) (.ok ())).phase k = .awaiting := by
  rw [h]
  exact Function.update_self ..

theorem UpdateEnv.endsAs_of_refused (e : ScheduleError) :
    env.EndsAs k s ((updateFailed e).map fun outcome => (outcome, none)) := by
  apply UpdateEnv.endsAs_of_run [.described (.ok ()) (.ok ()), .answered (.error e)]
    (env.begin k s (.ok ()) (.ok ()))
  · refine (Machine.run_cons_iff env.step).2 ⟨_, UpdateEnv.step_described hphase _ _, ?_⟩
    refine (Machine.run_cons_iff env.step).2 ⟨_, ?_, rfl⟩
    simp only [UpdateEnv.step, UpdateEnv.begin_awaiting h, UpdateEnv.attempt]
  · rw [h]
    rfl

theorem UpdateEnv.run_landed :
    Machine.run env.step (landed k) s =
      some (env.carryOut k (env.begin k s (.ok ()) (.ok ())) spec) := by
  have hsent : (env.begin k s (.ok ()) (.ok ())).sent k = some spec := by
    rw [h]
    exact Function.update_self ..
  refine (Machine.run_cons_iff env.step).2 ⟨_, UpdateEnv.step_described hphase _ _, ?_⟩
  refine (Machine.run_cons_iff env.step).2 ⟨_, ?_, rfl⟩
  simp only [UpdateEnv.step, UpdateEnv.attempt, hsent, Option.map_some]

theorem UpdateEnv.endsAs_of_accepted : env.EndsAs k s (.ok (.updated, some spec)) := by
  let t := env.carryOut k (env.begin k s (.ok ()) (.ok ())) spec
  refine ⟨[.described (.ok ()) (.ok ()), .carriedOut, .answered (.ok ())],
    t.stand k (.ended (.ok .updated)), ?_, UpdateState.stand_phase_self .., Function.update_self ..⟩
  refine (Machine.run_append_iff env.step).2 ⟨_, UpdateEnv.run_landed hphase h, ?_⟩
  refine (Machine.run_cons_iff env.step).2 ⟨_, UpdateEnv.step_confirmed ?_ ?_, rfl⟩
  · exact UpdateEnv.begin_awaiting h
  · exact Function.update_self ..

end Request

variable (env) in
/-- An attempt that nothing else comes between is the activity. -/
theorem UpdateEnv.endsAs_activity (cluster : Cluster Calendar)
    (hdescribe : ∀ desc, cluster.describe (env.target k) = .ok desc →
      desc.spec = s.specs (env.target k)) :
    env.EndsAs k s (updateScheduleWindows env.sdk cluster env.tzdb (env.input k)) := by
  rw [updateScheduleWindows_eq_bind]
  cases cluster.clientFor (env.input k).namespace with
  | error e => exact UpdateEnv.endsAs_of_begin hphase (.error e) (.ok ()) (.error e) rfl
  | ok u =>
    cases hts : updateInstant env.tzdb (env.input k) with
    | error e =>
      apply UpdateEnv.endsAs_of_begin hphase (.ok ()) (.ok ()) (.error e)
      simp only [UpdateEnv.begin, hts]
    | ok ts =>
      cases hdesc : cluster.describe ⟨(env.input k).namespace, (env.input k).scheduleId⟩ with
      | error e =>
        apply UpdateEnv.endsAs_of_begin hphase (.ok ()) (.error e) (updateFailed e)
        simp only [UpdateEnv.begin, hts]
      | ok desc =>
        have hspec := hdescribe desc hdesc
        change env.EndsAs k s (rephase env.sdk ts desc.spec >>= _)
        cases hwrite : rephase env.sdk ts desc.spec with
        | error e =>
          apply UpdateEnv.endsAs_of_begin hphase (.ok ()) (.ok ()) (.error e)
          simp only [UpdateEnv.begin, hts, ← hspec, hwrite]
        | ok spec =>
          have hrewrite : env.rewrite k (s.specs (env.target k)) = .ok spec :=
            except_bind_eq_ok_iff.2 ⟨ts, hts, hspec ▸ hwrite⟩
          have hbegin := UpdateEnv.begin_of_rewrite hrewrite
          change env.EndsAs k s (match cluster.accept _ spec with | .error e => _ | .ok () => _)
          cases cluster.accept ⟨(env.input k).namespace, (env.input k).scheduleId⟩ spec with
          | error e => exact UpdateEnv.endsAs_of_refused hphase hbegin e
          | ok u => exact UpdateEnv.endsAs_of_accepted hphase hbegin

end Alone

end Gridshift
