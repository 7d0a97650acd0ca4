import UpsertSql.Dialect.Basic

/-! Merges of a table of values into the target, and the engine that writes them. The lock keeps
others out between the look-up and the insert. -/
namespace UpsertSql
open Piece

def Piece.keyEquality (key : String) : List Piece :=
  [targetAlias, word ".", name key, word " = ", sourceAlias, word ".", name key]

def Piece.sourceColumn (column : String) : List Piece := [sourceAlias, word ".", name column]

def Spelling.merge (sp : Spelling) (u : Upsert) : List Piece :=
  word "MERGE INTO " :: table u.table ++ [word " WITH (HOLDLOCK) AS ", targetAlias]
    ++ word " USING (VALUES " :: valueRows u.rowCount u.columns.length
    ++ [word ") AS ", sourceAlias, word " ("] ++ columnList u.columns
    ++ word ") ON " :: separated " AND " (u.keys.map keyEquality)
    ++ word " WHEN NOT MATCHED BY TARGET THEN INSERT (" :: columnList u.columns
    ++ word ") VALUES (" :: separated ", " (u.columns.map sourceColumn)
    ++ word ")" :: (if u.updates.isEmpty then []
      else word " WHEN MATCHED THEN UPDATE SET " :: sp.assignmentList u.updates)
    ++ [word ";"]

/-- Parameters are numbered from zero. -/
def Dialect.sqlserver : Dialect :=
  ofForm "sqlserver"
    { quotes := .square
      placeholder := fun i => s!"@p{i}"
      sourceOpening := [.sourceAlias, .word "."] }
    Spelling.merge

end UpsertSql
