import UpsertSql.Assignment.Basic
import UpsertSql.Policy
import UpsertSql.Schema.Lookup

/-! From a policy to the assignments it stands for. An expression is taken if it is a value, a
property, or one of `+ - * /` on two of those. -/
namespace UpsertSql.Schema
variable {E : Type}

/-- The inserted row holds no generated columns, the existing one does. -/
def readProperty (s : Schema E) (side : Side) (property : String) :
    Except Failure (Operand Value Column) := do
  let c ← s.resolve property
  if side = .source ∧ c.generated then
    .error (.malformedUpdate (.readsGenerated property c.name))
  else .ok (.column c side)

def operand (s : Schema E) : Expr → Except Failure (Operand Value Column)
  | .value v => .ok (.constant v)
  | .property side name => s.readProperty side name
  | .binary op _ _ => .error (.unsupportedOperation (.nested (.operator op)))
  | .call function _ => .error (.unsupportedOperation (.nested (.call function)))

/-- An operation that is not offered is refused before its operands are looked at. -/
def formula (s : Schema E) : Expr → Except Failure (Formula (Operand Value Column))
  | .binary (.arith op) l r => return .arith op (← s.operand l) (← s.operand r)
  | .binary op _ _ => .error (.unsupportedOperation (.unsupported (.operator op)))
  | .call function _ => .error (.unsupportedOperation (.unsupported (.call function)))
  | e => return .single (← s.operand e)

/-- A column that may be assigned after those in `taken`. -/
def resolveAssigned (s : Schema E) (taken : List Column) (property : String) :
    Except Failure Column := do
  let c ← s.resolve property
  if c.generated then .error (.malformedUpdate (.assignsGenerated c.name))
  else if c ∈ taken then .error (.malformedUpdate (.assignsTwice c.name))
  else .ok c

def explicitAssignments (s : Schema E) (taken : List Column) :
    List (String × Expr) → Except Failure (List KnownAssignment)
  | [] => .ok []
  | (property, e) :: rest => do
    let c ← s.resolveAssigned taken property
    let formula ← s.formula e
    return ⟨c, formula⟩ :: (← s.explicitAssignments (c :: taken) rest)

/-- Every stored column outside the key takes its incoming value. -/
def defaultAssignments (s : Schema E) (keys : List Column) : List KnownAssignment :=
  (s.insertColumns.filter (· ∉ keys)).map .fromSource

def analyze (s : Schema E) (keys : List Column) : Policy → Except Failure (List KnownAssignment)
  | .updateAll => .ok (s.defaultAssignments keys)
  | .update spec =>
    if spec.isEmpty then .error (.malformedUpdate .nothingAssigned)
    else s.explicitAssignments [] spec.assignments
  | .doNothing => .ok []

end UpsertSql.Schema
