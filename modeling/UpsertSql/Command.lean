import UpsertSql.Assignment.Binding
import UpsertSql.Dialect.Basic

/-! From a request to a statement with its parameters. Planning looks at the schema, the key and the
policy alone; only then are the rows bound and the text written. -/
namespace UpsertSql

/-- Rows to be inserted or, where one with the same key exists, to be treated by the policy. -/
structure Request (E : Type) where
  schema : Schema E
  rows : List E
  /-- The properties by which an existing row is recognised. -/
  keys : List String
  policy : Policy := .updateAll

structure Plan where
  keys : List Column
  assignments : List KnownAssignment

structure Command where
  sql : String
  /-- The values of the placeholders, by number. -/
  parameters : List Value

namespace Request
variable {E : Type}

/-- Does not depend on the rows. -/
def plan (r : Request E) : Except Failure Plan := do
  let keys ← r.schema.resolveKeys r.keys
  return ⟨keys, ← r.schema.analyze keys r.policy⟩

/-- What a dialect is asked to write for a plan. -/
def upsert (r : Request E) (p : Plan) (updates : List BoundAssignment) : Upsert where
  table := r.schema.table
  rowCount := r.rows.length
  columns := r.schema.insertColumns.map (·.name)
  keys := p.keys.map (·.name)
  updates := updates

/-- The upsert and its parameters, the same for all dialects. -/
def bind (r : Request E) : Except Failure (Upsert × List Value) := do
  let p ← r.plan
  let b ← r.schema.bind r.rows p.assignments
  return (r.upsert p b.updates, b.parameters)

end Request

def Dialect.compile {E : Type} (d : Dialect) (r : Request E) : Except Failure Command := do
  let (u, parameters) ← r.bind
  return ⟨d.statement u, parameters⟩

end UpsertSql
