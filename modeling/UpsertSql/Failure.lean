import UpsertSql.Expr

/-! Why an upsert is not compiled or not carried out. Each failure is kept as its cause; the wording
is `Failure.message`. A reason that a caller finds on its own is kept as stated. -/
namespace UpsertSql

inductive UpdateFault where
  | nothingAssigned
  | assignsGenerated (column : String)
  | assignsTwice (column : String)
  /-- The inserted row carries no value for a generated column. -/
  | readsGenerated (property column : String)
  | stated (reason : String)
  deriving DecidableEq

def UpdateFault.reason : UpdateFault → String
  | nothingAssigned => "no column is assigned"
  | assignsGenerated column =>
    s!"column `{column}` is generated by the database and cannot be assigned"
  | assignsTwice column => s!"column `{column}` is assigned more than once"
  | readsGenerated property column =>
    s!"`source.{property}` refers to generated column `{column}`, "
      ++ "which is not part of the inserted row"
  | stated reason => reason

inductive OperationFault where
  | unsupported (operation : Combinator)
  | nested (operand : Combinator)
  | stated (reason : String)
  deriving DecidableEq

def OperationFault.reason : OperationFault → String
  | unsupported operation => operation.describe
  | nested operand =>
    s!"{operand.describe} used as an operand; only values and properties can be combined"
  | stated reason => reason

inductive KeyFault where
  | noColumns (entity : String)
  | generated (entity column : String)
  | stated (reason : String)
  deriving DecidableEq

def KeyFault.reason : KeyFault → String
  | noColumns entity => s!"no match columns given for `{entity}`"
  | generated entity column =>
    s!"column `{column}` of `{entity}` is generated by the database "
      ++ "and not part of the inserted rows"
  | stated reason => reason

/-- What a database reports: its message, then the chain of causes behind it. -/
structure BackendFault where
  message : String
  causes : List String := []
  deriving DecidableEq

inductive Failure where
  | malformedUpdate (fault : UpdateFault)
  | unknownColumn (entity property : String)
  | unsupportedOperation (fault : OperationFault)
  | invalidKey (fault : KeyFault)
  | emptyBatch
  | backend (fault : BackendFault)
  deriving DecidableEq

namespace Failure

def message : Failure → String
  | malformedUpdate fault => s!"malformed update specification: {fault.reason}"
  | unknownColumn entity property => s!"unknown property `{property}` on entity `{entity}`"
  | unsupportedOperation fault => s!"unsupported operation in update expression: {fault.reason}"
  | invalidKey fault => s!"invalid match specification: {fault.reason}"
  | emptyBatch => "cannot compile an upsert for an empty batch"
  | backend fault => fault.message

/-- Whether the failure was found before the database was reached. -/
def isCompileTime : Failure → Bool
  | backend _ => false
  | _ => true

/-- A backend's fault stands for itself, so what is behind it is the fault's own first cause. -/
def cause? : Failure → Option String
  | backend fault => fault.causes.head?
  | _ => none

end Failure
end UpsertSql
