import UpsertSql.Value

/-! How the entities of a type are stored: a table and its columns in order of declaration. Nothing
keeps two columns from sharing a property or a storage name. -/
namespace UpsertSql

structure TableName where
  name : String
  qualifier : Option String := none
  deriving DecidableEq

def TableName.text (t : TableName) : String :=
  match t.qualifier with
  | some q => s!"{q}.{t.name}"
  | none => t.name

/-- A property and the storage name it is kept under. -/
structure Column where
  property : String
  name : String
  /-- The database makes up the value; it is never inserted nor updated. -/
  generated : Bool
  deriving DecidableEq

/-- Where the value of a column comes from. -/
inductive Origin (E : Type) where
  | stored (read : E → Value)
  | generated

def Origin.read? {E : Type} : Origin E → Option (E → Value)
  | stored read => some read
  | generated => none

structure Field (E : Type) where
  property : String
  name : String
  origin : Origin E

def Field.column {E : Type} (f : Field E) : Column :=
  ⟨f.property, f.name, f.origin.read?.isNone⟩

structure Schema (E : Type) where
  table : TableName
  fields : List (Field E) := []

namespace Schema
variable {E : Type}

def ofTable (name : String) : Schema E := { table := { name } }

def inNamespace (s : Schema E) (qualifier : String) : Schema E :=
  { s with table := { s.table with qualifier := some qualifier } }

def add (s : Schema E) (f : Field E) : Schema E := { s with fields := s.fields ++ [f] }

def storedAs (s : Schema E) (property name : String) (read : E → Value) : Schema E :=
  s.add ⟨property, name, .stored read⟩

/-- A stored column named like its property. -/
def stored (s : Schema E) (property : String) (read : E → Value) : Schema E :=
  s.storedAs property property read

def generatedAs (s : Schema E) (property name : String) : Schema E :=
  s.add ⟨property, name, .generated⟩

/-- A generated column named like its property. -/
def generated (s : Schema E) (property : String) : Schema E := s.generatedAs property property

/-- What messages call the entity: its table, without the qualifier. -/
def entityName (s : Schema E) : String := s.table.name

def columns (s : Schema E) : List Column := s.fields.map Field.column

/-- The columns an insert writes. -/
def insertColumns (s : Schema E) : List Column := s.columns.filter (!·.generated)

/-- One reader for each of the insert columns, in their order. -/
def readers (s : Schema E) : List (E → Value) := s.fields.filterMap (·.origin.read?)

/-- The inserted row of an entity. -/
def rowOf (s : Schema E) (e : E) : List Value := s.readers.map (· e)

end Schema
end UpsertSql
