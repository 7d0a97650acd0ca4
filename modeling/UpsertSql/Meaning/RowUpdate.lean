import UpsertSql.Meaning.Evaluation

/-! What a list of assignments does to the existing row: all at once, each reading the row as it
was, or in turn, each reading what those before it have written. -/
namespace UpsertSql

def Row.set (row : Row) (name : String) (v : Value) : Row :=
  fun other => if other = name then v else row other

def Meeting.updateAtOnce (I : Arithmetic) (parameters : List Value) (m : Meeting)
    (as : List BoundAssignment) : Row :=
  as.foldl (fun row a => row.set a.column (a.evalBound I parameters m)) m.target

def Meeting.updateInTurn (I : Arithmetic) (parameters : List Value) (m : Meeting)
    (as : List BoundAssignment) : Row :=
  as.foldl (fun row a =>
    row.set a.column (a.evalBound I parameters { m with target := row })) m.target

end UpsertSql
