import UpsertSql.Assignment.Basic

/-! One upsert, bound and ready to be written down by a dialect. -/
namespace UpsertSql

structure Upsert where
  table : TableName
  /-- How many rows are inserted, each with a parameter for every column. -/
  rowCount : Nat
  columns : List String
  /-- The columns by which an existing row is recognised. -/
  keys : List String
  /-- What happens to an existing row. Empty: nothing. -/
  updates : List BoundAssignment

end UpsertSql
