import UpsertSql.Schema.Basic
import UpsertSql.Text.Escaped

/-! A schema in one line, for diagnostics. Readers are functions and do not show. -/
namespace UpsertSql
open Text (escaped)

/-- A record is its name and its labelled fields between braces. -/
def outlineRecord (name : String) (fields : List (String × String)) : String :=
  name ++ " \x7b " ++ ", ".intercalate (fields.map fun f => f.1 ++ ": " ++ f.2) ++ " \x7d"

def TableName.outline (t : TableName) : String :=
  let qualifier := match t.qualifier with
    | some q => "Some(" ++ escaped q ++ ")"
    | none => "None"
  outlineRecord "TableName" [("schema", qualifier), ("name", escaped t.name)]

def Column.outline (c : Column) : String :=
  outlineRecord "ColumnRef" [("property", escaped c.property), ("column", escaped c.name),
    ("generated", if c.generated then "true" else "false")]

def Schema.outline {E : Type} (s : Schema E) : String :=
  outlineRecord "EntitySchema" [("table", s.table.outline),
    ("columns", "[" ++ ", ".intercalate (s.columns.map Column.outline) ++ "]")]

end UpsertSql
