import UpsertSql.Failure
import UpsertSql.Schema.Basic

/-! From property names to columns. The first column declared with a property answers for it. -/
namespace UpsertSql.Schema
variable {E : Type}

def find? (s : Schema E) (property : String) : Option Column :=
  s.columns.find? (·.property == property)

def resolve (s : Schema E) (property : String) : Except Failure Column :=
  match s.find? property with
  | some c => .ok c
  | none => .error (.unknownColumn s.entityName property)

/-- A key column is compared with the inserted rows, so it has to be stored. -/
def resolveKey (s : Schema E) (property : String) : Except Failure Column := do
  let c ← s.resolve property
  if c.generated then .error (.invalidKey (.generated s.entityName c.name)) else .ok c

/-- The key columns of an upsert, each at its first mention. -/
def resolveKeys (s : Schema E) (properties : List String) : Except Failure (List Column) :=
  if properties.isEmpty then .error (.invalidKey (.noColumns s.entityName))
  else return (← properties.mapM s.resolveKey).eraseDups

end UpsertSql.Schema
