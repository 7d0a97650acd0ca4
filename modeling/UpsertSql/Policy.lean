import UpsertSql.Expr

/-! What an upsert does to the row it meets. -/
namespace UpsertSql

/-- Properties and what they are set to, in the order they were added. -/
structure UpdateSpec where
  assignments : List (String × Expr) := []
  deriving BEq

namespace UpdateSpec

def set (spec : UpdateSpec) (property : String) (e : Expr) : UpdateSpec :=
  ⟨spec.assignments ++ [(property, e)]⟩

def setValue {α : Type} [ToValue α] (spec : UpdateSpec) (property : String) (a : α) : UpdateSpec :=
  spec.set property (.value (toValue a))

def length (spec : UpdateSpec) : Nat := spec.assignments.length

def isEmpty (spec : UpdateSpec) : Bool := spec.assignments.isEmpty

end UpdateSpec

inductive Policy where
  /-- Overwrite every stored column outside the key with its incoming value. -/
  | updateAll
  | update (spec : UpdateSpec)
  | doNothing
  deriving BEq

namespace Policy

instance : Inhabited Policy := ⟨updateAll⟩

instance : Coe UpdateSpec Policy := ⟨update⟩

/-- Without a specification everything is overwritten. -/
def ofOption : Option UpdateSpec → Policy
  | some spec => update spec
  | none => updateAll

end Policy
end UpsertSql
