import UpsertSql.Schema.Basic

/-! How schemas come about: from a bare table by one call after the other. A call may also go on
with a copy, so that the schema it was made of is left for other uses. -/
namespace UpsertSql
variable {E : Type}

/-- A reader is shared by the copies. -/
def Field.copy (f : Field E) : Field E where
  property := f.property
  name := f.name
  origin := match f.origin with
    | .stored read => .stored read
    | .generated => .generated

def Schema.copy (s : Schema E) : Schema E where
  table := s.table
  fields := s.fields.map Field.copy

/-- A call on a schema that is being built. -/
inductive Declaration (E : Type) where
  | stored (property : String) (read : E → Value)
  | storedAs (property name : String) (read : E → Value)
  | generated (property : String)
  | generatedAs (property name : String)
  | inNamespace (qualifier : String)
  | copy

def Declaration.apply (s : Schema E) : Declaration E → Schema E
  | stored property read => s.stored property read
  | storedAs property name read => s.storedAs property name read
  | generated property => s.generated property
  | generatedAs property name => s.generatedAs property name
  | inNamespace qualifier => s.inNamespace qualifier
  | copy => s.copy

def Schema.build (table : String) (ds : List (Declaration E)) : Schema E :=
  ds.foldl Declaration.apply (.ofTable table)

/-- What an inserted row holds under a name. -/
structure Cell (E : Type) where
  name : String
  read : E → Value

/-- What the call adds to inserted rows. -/
def Declaration.cell? : Declaration E → Option (Cell E)
  | stored property read => some ⟨property, read⟩
  | storedAs _ name read => some ⟨name, read⟩
  | _ => none

end UpsertSql
