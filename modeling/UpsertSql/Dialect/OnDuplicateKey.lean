import UpsertSql.Dialect.Basic

/-! Inserts that leave it to the engine which key is violated, and the engine that writes them. -/
namespace UpsertSql
open Piece

/-- To do nothing the first key column is set to itself: the row stays and no error is raised. -/
def Spelling.onDuplicateKey (sp : Spelling) (u : Upsert) : List Piece :=
  word "INSERT INTO " :: table u.table ++ word " (" :: columnList u.columns
    ++ word ") VALUES " :: valueRows u.rowCount u.columns.length
    ++ if u.updates.isEmpty then
        match u.keys.head? with
        | some key => [word " ON DUPLICATE KEY UPDATE ", name key, word " = ", name key]
        | none => []
      else word " ON DUPLICATE KEY UPDATE " :: sp.assignmentList u.updates

/-- Parameters are not numbered: they stand in the text in the order they are bound. A column
without qualification belongs to the existing row. -/
def Dialect.mysql : Dialect :=
  ofForm "mysql"
    { quotes := .back
      placeholder := fun _ => "?"
      sourceOpening := [.word "VALUES("]
      sourceClosing := [.word ")"]
      targetOpening := [] }
    Spelling.onDuplicateKey

end UpsertSql
