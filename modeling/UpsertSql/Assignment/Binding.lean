import UpsertSql.Assignment.Analysis

/-! The parameter list of a statement: the inserted rows first, then the constants of the updates,
each of which is afterwards known by its position. -/
namespace UpsertSql

/-- A constant takes the number `next`; a column takes none. -/
def Operand.number (next : Nat) : Operand Value Column → Nat × Operand Nat String
  | constant _ => (next + 1, .constant next)
  | column c side => (next, .column c.name side)

def Assignment.number (next : Nat) (a : KnownAssignment) : Nat × BoundAssignment :=
  let (next, formula) := a.formula.mapAccum Operand.number next
  (next, ⟨a.column.name, formula⟩)

/-- Numbers the constants consecutively from `next` and gives the number after the last. -/
def numberAssignments (next : Nat) : List KnownAssignment → Nat × List BoundAssignment
  | [] => (next, [])
  | a :: as =>
    let (next, b) := a.number next
    let (next, bs) := numberAssignments next as
    (next, b :: bs)

structure Bindings where
  parameters : List Value
  updates : List BoundAssignment

namespace Schema
variable {E : Type}

def parameters (s : Schema E) (rows : List E) (as : List KnownAssignment) : List Value :=
  rows.flatMap s.rowOf ++ as.flatMap Assignment.constants

/-- The constants are the last of the parameters. -/
def bind (s : Schema E) (rows : List E) (as : List KnownAssignment) : Except Failure Bindings :=
  if rows.isEmpty then .error .emptyBatch
  else
    let parameters := s.parameters rows as
    let first := parameters.length - (as.flatMap Assignment.constants).length
    .ok ⟨parameters, (numberAssignments first as).2⟩

end Schema
end UpsertSql
