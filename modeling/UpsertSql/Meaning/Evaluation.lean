import UpsertSql.Assignment.Analysis

/-! What expressions and formulas stand for where an incoming row meets an existing one. Engines
compute differently, so the four operations are left open. -/
namespace UpsertSql

/-- A value for every storage name. -/
abbrev Row := String → Value

abbrev Arithmetic := Arith → Value → Value → Value

structure Meeting where
  source : Row
  target : Row

def Meeting.read (m : Meeting) : Side → Row
  | .source => m.source
  | .target => m.target

/-- A property is read under the storage name of the first column declared with it. Comparisons,
logic and calls are given no value. -/
def Expr.eval? {E : Type} (I : Arithmetic) (s : Schema E) (m : Meeting) : Expr → Option Value
  | value v => some v
  | property side p => (s.columns.find? (·.property == p)).map fun c => m.read side c.name
  | binary (.arith op) l r => return I op (← l.eval? I s m) (← r.eval? I s m)
  | binary _ _ _ => none
  | call _ _ => none

def Operand.eval {κ γ : Type} (constant : κ → Value) (name : γ → String) (m : Meeting) :
    Operand κ γ → Value
  | .constant k => constant k
  | .column c side => m.read side (name c)

def Formula.eval {α : Type} (I : Arithmetic) (f : α → Value) : Formula α → Value
  | single a => f a
  | arith op l r => I op (f l) (f r)

/-- The value an assignment writes before its constants are bound. -/
def Assignment.eval (I : Arithmetic) (m : Meeting) (a : KnownAssignment) : Value :=
  a.formula.eval I (Operand.eval id Column.name m)

/-- A parameter stands for the value at its position; past the end of the list there is null. -/
def Assignment.evalBound (I : Arithmetic) (parameters : List Value) (m : Meeting)
    (a : BoundAssignment) : Value :=
  a.formula.eval I (Operand.eval (fun i => parameters.getD i .null) id m)

end UpsertSql
