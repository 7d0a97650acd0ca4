import UpsertSql.Command

/-! Handing a compiled upsert to a backend. A backend is any action that takes a command and answers
with the number of rows it touched or a fault. -/
namespace UpsertSql
variable {E : Type}

/-- What a backend answers to one command. -/
abbrev Answer := Except BackendFault Nat

def Answer.result (a : Answer) : Except Failure Nat := a.mapError .backend

namespace Dialect

/-- Runs an upsert through a backend that is called directly. Without rows there is nothing to call
it for, but key and policy are still checked. -/
def run {m : Type → Type} [Monad m] (d : Dialect) (execute : Command → m Answer) (r : Request E) :
    m (Except Failure Nat) :=
  if r.rows.isEmpty then return r.plan.map fun _ => 0
  else match d.compile r with
    | .ok command => return (← execute command).result
    | .error e => return .error e

end Dialect

/-- An upsert on its way: it stops where a command is to be executed and is taken up with the
answer. -/
inductive Progress where
  | finished (result : Except Failure Nat)
  | waiting (command : Command) (resume : Answer → Progress)

namespace Progress

/-- All compiling is done before the first stop, so an upsert can be dropped there. -/
def start (d : Dialect) (r : Request E) : Progress :=
  if r.rows.isEmpty then finished (r.plan.map fun _ => 0)
  else match d.compile r with
    | .ok command => waiting command fun a => finished a.result
    | .error e => finished (.error e)

/-- Answers every stop until the upsert has come to its end. -/
def complete {m : Type → Type} [Monad m] (execute : Command → m Answer) :
    Progress → m (Except Failure Nat)
  | finished result => return result
  | waiting command resume => do (resume (← execute command)).complete execute

end Progress

/-- Runs an upsert in stops. -/
def Dialect.runAsync {m : Type → Type} [Monad m] (d : Dialect) (execute : Command → m Answer)
    (r : Request E) : m (Except Failure Nat) :=
  (Progress.start d r).complete execute

end UpsertSql
