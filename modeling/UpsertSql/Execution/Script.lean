import UpsertSql.Execution.Basic

/-! A backend that answers from a script and keeps account of its calls, and whole sessions
against it. -/
namespace UpsertSql

structure Script where
  answers : List Answer
  calls : List Command := []

/-- Takes the next answer; when all are used up, that as many rows were touched as there are
parameters. -/
def Script.execute (command : Command) : StateM Script Answer := fun s =>
  let calls := s.calls ++ [command]
  match s.answers with
  | a :: rest => (a, ⟨rest, calls⟩)
  | [] => (.ok command.parameters.length, ⟨[], calls⟩)

inductive Mode where
  | prepare | run | runAsync
  deriving DecidableEq

/-- Each step brings entities of a type of its own. -/
structure Step where
  {E : Type}
  mode : Mode
  request : Request E

inductive Outcome where
  | prepared (result : Except Failure Command)
  | ran (result : Except Failure Nat)

def Step.perform (d : Dialect) (s : Step) : StateM Script Outcome :=
  match s.mode with
  | .prepare => return .prepared (d.compile s.request)
  | .run => return .ran (← d.run Script.execute s.request)
  | .runAsync => return .ran (← d.runAsync Script.execute s.request)

/-- The steps of a session, one after the other against the same backend. -/
def performAll (d : Dialect) (steps : List Step) : StateM Script (List Outcome) :=
  steps.mapM (·.perform d)

end UpsertSql
