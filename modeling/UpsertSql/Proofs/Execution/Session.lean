import UpsertSql.Dialect.OnConflict
import UpsertSql.Execution.Script
import UpsertSql.Proofs.Violations

/-! Sessions against a scripted backend, told from what each step compiles to. The backend is called
once for each step that has rows and compiles, and its answers are used up in that order. Whether an
upsert is run in stops makes no difference to anyone. -/
namespace UpsertSql
variable {E : Type}

namespace Script

/-- What the backend answers to its next command. -/
def next (s : Script) (c : Command) : Answer := s.answers.head?.getD (.ok c.parameters.length)

/-- The backend when it has been called with the commands. -/
def after (s : Script) (cs : List Command) : Script := ⟨s.answers.drop cs.length, s.calls ++ cs⟩

theorem after_nil (s : Script) : s.after [] = s := by simp [after]

theorem after_append (s : Script) (cs ds : List Command) :
    s.after (cs ++ ds) = (s.after cs).after ds := by
  simp [after, List.drop_drop]

theorem execute_eq (c : Command) (s : Script) : Script.execute c s = (s.next c, s.after [c]) := by
  obtain ⟨answers, calls⟩ := s
  cases answers with
  | nil => rfl
  | cons a answers => rfl

end Script

namespace Answer

theorem result_ok (n : Nat) : Answer.result (.ok n) = .ok n := rfl

theorem result_error (fault : BackendFault) :
    Answer.result (.error fault) = .error (.backend fault) := rfl

end Answer

namespace Request
variable {r : Request E} {d : Dialect} {answer : Command → Answer}

/-- The command the backend is called with when the request is run. -/
def command? (d : Dialect) (r : Request E) : Option Command :=
  if r.rows = [] then none else (d.compile r).toOption

/-- What running the request comes to, once it is known what its command would be answered: the
count, or the backend's fault. -/
def result (d : Dialect) (answer : Command → Answer) (r : Request E) : Except Failure Nat :=
  match d.compile r with
  | .ok c =>
    match answer c with
    | .ok n => .ok n
    | .error fault => .error (.backend fault)
  | .error f => if r.rows = [] ∧ f = .emptyBatch then .ok 0 else .error f

theorem command?_of_compile {c : Command} (h : d.compile r = .ok c) : r.command? d = some c := by
  rw [command?, if_neg (rows_ne_nil_of_compile h), h]
  rfl

theorem command?_of_error {f : Failure} (h : d.compile r = .error f) : r.command? d = none := by
  unfold command?
  by_cases hr : r.rows = []
  · rw [if_pos hr]
  · rw [if_neg hr, h]
    rfl

theorem result_of_compile {c : Command} (h : d.compile r = .ok c) :
    r.result d answer = (answer c).result := by
  cases ha : answer c with
  | ok n => simp only [result, h, ha, Answer.result_ok]
  | error fault => simp only [result, h, ha, Answer.result_error]

theorem result_of_error {f : Failure} (h : d.compile r = .error f) :
    r.result d answer = if r.rows = [] ∧ f = .emptyBatch then .ok 0 else .error f := by
  rw [result, h]

/-- Without rows only the plan is made. It fails where compiling does, except that compiling would
in the end not accept that there are none. -/
theorem result_of_rows_nil (hr : r.rows = []) : r.result d answer = r.plan.map fun _ => 0 := by
  cases hp : r.plan with
  | ok p =>
    rw [result_of_error (compile_of_plan_ok d hp hr), if_pos ⟨hr, rfl⟩]
    rfl
  | error f =>
    have hf : f ≠ .emptyBatch := by
      rintro rfl
      cases isOfPlan_of_plan hp
    rw [result_of_error (compile_of_plan_error d hp), if_neg fun h => hf h.2]
    rfl

/-- What fails before the database is reached fails without a call, and the other way round. -/
theorem isCompileTime_of_result {f : Failure}
    (h : r.result d answer = .error f) : f.isCompileTime = true ↔ r.command? d = none := by
  cases hc : d.compile r with
  | ok c =>
    have hs : r.command? d = some c := command?_of_compile hc
    rw [result_of_compile hc] at h
    cases ha : answer c with
    | ok n =>
      rw [ha, Answer.result_ok] at h
      cases h
    | error fault =>
      rw [ha, Answer.result_error] at h
      obtain rfl : Failure.backend fault = f := Except.error.inj h
      simp [hs, Failure.isCompileTime]
  | error g =>
    have hg : g.isCompileTime = true := isCompileTime_of_compile hc
    have hs : r.command? d = none := command?_of_error hc
    rw [result_of_error hc] at h
    obtain rfl : g = f := by
      by_cases he : r.rows = [] ∧ g = .emptyBatch
      · simp [he] at h
      · simpa [he] using h
    simp [hs, hg]

end Request

namespace Dialect
variable {m : Type → Type} [Monad m]

theorem runAsync_eq_run (d : Dialect) (execute : Command → m Answer) (r : Request E) :
    d.runAsync execute r = d.run execute r := by
  unfold runAsync run Progress.start
  by_cases hr : r.rows.isEmpty
  · rw [if_pos hr, if_pos hr, Progress.complete]
  · rw [if_neg hr, if_neg hr]
    cases d.compile r with
    | ok c => rfl
    | error f => rfl

theorem run_script (d : Dialect) (r : Request E) (s : Script) :
    d.run Script.execute r s = (r.result d s.next, s.after (r.command? d).toList) := by
  unfold run
  by_cases hr : r.rows = []
  · have hc : r.command? d = none := if_pos hr
    rw [Request.result_of_rows_nil hr, hc, Option.toList_none, s.after_nil, hr]
    rfl
  · rw [if_neg (by simpa using hr)]
    cases h : d.compile r with
    | ok c =>
      rw [Request.command?_of_compile h, Request.result_of_compile h]
      change ((Script.execute c s).1.result, (Script.execute c s).2) = _
      rw [Script.execute_eq]
      rfl
    | error f =>
      rw [Request.command?_of_error h, Option.toList_none, s.after_nil,
        Request.result_of_error h, if_neg fun he => hr he.1]
      rfl

end Dialect

namespace Step

/-- The command the step calls the backend with. -/
def command? (d : Dialect) (s : Step) : Option Command :=
  match s.mode with
  | .prepare => none
  | _ => s.request.command? d

def outcome (d : Dialect) (answer : Command → Answer) (s : Step) : Outcome :=
  match s.mode with
  | .prepare => .prepared (d.compile s.request)
  | _ => .ran (s.request.result d answer)

/-- The same step, but in stops where it was run at once. -/
def async (s : Step) : Step :=
  { s with mode := if s.mode = .run then .runAsync else s.mode }

theorem perform_script (d : Dialect) (step : Step) (s : Script) :
    step.perform d s = (step.outcome d s.next, s.after (step.command? d).toList) := by
  obtain ⟨mode, r⟩ := step
  have hrun : (do return Outcome.ran (← d.run Script.execute r) : StateM Script Outcome) s =
      (.ran (r.result d s.next), s.after (r.command? d).toList) := by
    change (Outcome.ran (d.run Script.execute r s).1, (d.run Script.execute r s).2) = _
    rw [d.run_script]
  cases mode with
  | prepare =>
    change (Outcome.prepared (d.compile r), s) = (_, s.after [])
    rw [s.after_nil]
    rfl
  | run => exact hrun
  | runAsync =>
    rw [perform, d.runAsync_eq_run]
    exact hrun

theorem perform_async (d : Dialect) (step : Step) : step.async.perform d = step.perform d := by
  obtain ⟨mode, r⟩ := step
  cases mode with
  | run =>
    have h := d.runAsync_eq_run Script.execute r
    simp only [async, perform, if_pos, h]
  | _ => rfl

end Step

/-- The commands the backend is called with during a session, in the order of the steps. -/
def commands (d : Dialect) (steps : List Step) : List Command := steps.filterMap (·.command? d)

theorem commands_cons (d : Dialect) (step : Step) (steps : List Step) :
    commands d (step :: steps) = (step.command? d).toList ++ commands d steps := by
  unfold commands
  cases h : step.command? d with
  | none =>
    rw [List.filterMap_cons_none h]
    rfl
  | some c =>
    rw [List.filterMap_cons_some h]
    rfl

theorem performAll_cons (d : Dialect) (step : Step) (steps : List Step) (s : Script) :
    performAll d (step :: steps) s =
      ((step.perform d s).1 :: (performAll d steps (step.perform d s).2).1,
        (performAll d steps (step.perform d s).2).2) := by
  simp only [performAll, List.mapM_cons]
  rfl

theorem performAll_script (d : Dialect) (steps : List Step) (s : Script) :
    performAll d steps s =
      (steps.mapIdx fun i step => step.outcome d (s.after (commands d (steps.take i))).next,
        s.after (commands d steps)) := by
  -- later steps meet the backend as the earlier ones left it
  induction steps generalizing s with
  | nil =>
    change ([], s) = ([], s.after [])
    rw [s.after_nil]
  | cons step steps ih =>
    rw [performAll_cons, step.perform_script, ih, List.mapIdx_cons, commands_cons, s.after_append]
    simp only [List.take_zero, List.take_succ_cons, commands_cons, s.after_append]
    simp [commands, s.after_nil]

theorem performAll_async (d : Dialect) (p : Nat → Bool) (steps : List Step) :
    performAll d (steps.mapIdx fun i step => if p i then step.async else step) =
      performAll d steps := by
  have hp (b : Bool) (step : Step) :
      (if b then step.async else step).perform d = step.perform d := by
    cases b with
    | true => exact step.perform_async d
    | false => rfl
  induction steps generalizing p with
  | nil => rfl
  | cons step steps ih =>
    have hl := ih fun i => p (i + 1)
    unfold performAll at hl ⊢
    rw [List.mapIdx_cons, List.mapM_cons, List.mapM_cons, hp, hl]

/-- What the step was refused for or failed with. -/
def Outcome.failure? : Outcome → Option Failure
  | .prepared (.error f) => some f
  | .ran (.error f) => some f
  | _ => none

/-- If the step fails, the failure tells whether the backend was called. -/
def Step.Blames (d : Dialect) (step : Step) (o : Outcome) : Prop :=
  ∀ f, o.failure? = some f → (f.isCompileTime = true ↔ step.command? d = none)

theorem Step.blames_outcome (d : Dialect) (answer : Command → Answer) (step : Step) :
    step.Blames d (step.outcome d answer) := by
  obtain ⟨mode, r⟩ := step
  have hrun (f : Failure) (h : (Outcome.ran (r.result d answer)).failure? = some f) :
      f.isCompileTime = true ↔ r.command? d = none := by
    cases hr : r.result d answer with
    | ok n =>
      rw [hr] at h
      cases h
    | error g =>
      rw [hr] at h
      cases h
      exact Request.isCompileTime_of_result hr
  cases mode with
  | prepare =>
    intro f h
    have hf : f.isCompileTime = true := by
      cases hc : d.compile r with
      | ok c =>
        simp [outcome, hc, Outcome.failure?] at h
      | error g =>
        obtain rfl : g = f := by simpa [outcome, hc, Outcome.failure?] using h
        exact Request.isCompileTime_of_compile hc
    simp [hf, command?]
  | run => exact hrun
  | runAsync => exact hrun

theorem performAll_blames (d : Dialect) (steps : List Step) (s : Script) :
    List.Forall₂ (Step.Blames d) steps (performAll d steps s).1 := by
  induction steps generalizing s with
  | nil => exact .nil
  | cons step steps ih =>
    rw [performAll_cons, step.perform_script]
    exact .cons (step.blames_outcome d s.next) (ih _)

/-- What the steps compile to settles the session: which commands the backend is called with and
which of its answers each step gets. A failure tells whether its step called the backend, and it
makes no difference which upserts are run in stops. -/
theorem session_agrees_with_compiler (d : Dialect) (steps : List Step) (s : Script) :
    (performAll d steps).run s =
        (steps.mapIdx fun i step => step.outcome d (s.after (commands d (steps.take i))).next,
          s.after (commands d steps)) ∧
      List.Forall₂ (Step.Blames d) steps ((performAll d steps).run s).1 ∧
      ∀ p : Nat → Bool,
        performAll d (steps.mapIdx fun i step => if p i then step.async else step) =
          performAll d steps :=
  ⟨performAll_script d steps s, performAll_blames d steps s, fun p => performAll_async d p steps⟩

/-- Hits stored at once and in stops, with a look at the command in between; then hits without a key,
and a key without hits. -/
def Step.hits : List Step :=
  [⟨.run, .hits⟩, ⟨.prepare, .hits⟩, ⟨.runAsync, .hits⟩, ⟨.run, { Request.hits with keys := [] }⟩,
    ⟨.runAsync, { Request.hits with rows := [] }⟩]

theorem session_of_hits :
    ∃ command, Dialect.postgres.compile .hits = .ok command ∧
      (performAll .postgres Step.hits).run
          { answers := [.ok 3, .error ⟨"not stored", ["disk full"]⟩, .ok 1] } =
        ([.ran (.ok 3), .prepared (.ok command),
            .ran (.error (.backend ⟨"not stored", ["disk full"]⟩)),
            .ran (.error (.invalidKey (.noColumns "hits"))), .ran (.ok 0)],
          { answers := [.ok 1], calls := [command, command] }) := by
  have h := (session_agrees_with_compiler .postgres Step.hits
    { answers := [.ok 3, .error ⟨"not stored", ["disk full"]⟩, .ok 1] }).1
  exact ⟨_, rfl, h.trans rfl⟩

end UpsertSql
