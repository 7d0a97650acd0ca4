import UpsertSql.Dialect.Basic

/-! Inserts that name the key a conflict is about, and the engines that write them. -/
namespace UpsertSql
open Piece

def Spelling.onConflict (sp : Spelling) (u : Upsert) : List Piece :=
  word "INSERT INTO " :: table u.table ++ [word " AS ", targetAlias, word " ("]
    ++ columnList u.columns ++ word ") VALUES " :: valueRows u.rowCount u.columns.length
    ++ word " ON CONFLICT (" :: columnList u.keys ++ word ")" ::
      if u.updates.isEmpty then [word " DO NOTHING"]
      else word " DO UPDATE SET " :: sp.assignmentList u.updates

namespace Dialect

/-- Parameters are numbered from one. -/
def postgres : Dialect :=
  ofForm "postgres"
    { placeholder := fun i => s!"${i + 1}", sourceOpening := [.word "EXCLUDED."] }
    Spelling.onConflict

def sqlite : Dialect :=
  ofForm "sqlite"
    { placeholder := fun i => s!"?{i + 1}", sourceOpening := [.word "excluded."] }
    Spelling.onConflict

end Dialect
end UpsertSql
