import UpsertSql.Proofs.Dialect.Placeholders

/-! A statement in two parts. The first is written for the rows and the key, whatever the updates
are; the second, the branch, for the updates. A reader takes the one after the other. -/
namespace UpsertSql
open Piece

namespace Engine

/-- The keys that are named before the updates: none where the engine finds the key itself. -/
def statedKeys : Engine → List String → List String
  | mysql, _ => []
  | _, keys => keys

/-- What is written before the updates. -/
def opening : Engine → TableName → Nat → List String → List String → List Piece
  | mysql, t, rowCount, columns, _ =>
    word "INSERT INTO " :: table t ++ word " (" :: columnList columns
      ++ word ") VALUES " :: valueRows rowCount columns.length
  | sqlserver, t, rowCount, columns, keys =>
    word "MERGE INTO " :: table t ++ [word " WITH (HOLDLOCK) AS ", targetAlias]
      ++ word " USING (VALUES " :: valueRows rowCount columns.length
      ++ [word ") AS ", sourceAlias, word " ("] ++ columnList columns
      ++ word ") ON " :: separated " AND " (keys.map keyEquality)
      ++ word " WHEN NOT MATCHED BY TARGET THEN INSERT (" :: columnList columns
      ++ word ") VALUES (" :: separated ", " (columns.map sourceColumn) ++ [word ")"]
  | _, t, rowCount, columns, keys =>
    word "INSERT INTO " :: table t ++ [word " AS ", targetAlias, word " ("]
      ++ columnList columns ++ word ") VALUES " :: valueRows rowCount columns.length
      ++ word " ON CONFLICT (" :: columnList keys ++ [word ")"]

/-- What is written where nothing is updated. -/
def idle : Engine → List String → List Piece
  | mysql, keys =>
    match keys.head? with
    | some key => [word " ON DUPLICATE KEY UPDATE ", .name key, word " = ", .name key]
    | none => []
  | sqlserver, _ => []
  | _, _ => [word " DO NOTHING"]

def updateWord : Engine → String
  | mysql => " ON DUPLICATE KEY UPDATE "
  | sqlserver => " WHEN MATCHED THEN UPDATE SET "
  | _ => " DO UPDATE SET "

def closing : Engine → List Piece
  | sqlserver => [word ";"]
  | _ => []

/-- What is written for the updates. The keys are looked at only where there are none. -/
def branch (e : Engine) (keys : List String) (updates : List BoundAssignment) : List Piece :=
  (if updates.isEmpty then e.idle keys
    else word e.updateWord :: e.renderer.assignmentList updates) ++ e.closing

theorem pieces_eq_append (e : Engine) (u : Upsert) :
    e.pieces u =
      e.opening u.table u.rowCount u.columns (e.statedKeys u.keys) ++
        e.branch u.keys u.updates := by
  cases e with
  | mysql =>
    cases hk : u.keys.head? <;>
      simp [pieces, Spelling.onDuplicateKey, opening, branch, idle, updateWord, closing, renderer,
        hk]
  | sqlserver =>
    simp [pieces, Spelling.merge, opening, statedKeys, branch, idle, updateWord, closing, renderer]
  | _ =>
    simp [pieces, Spelling.onConflict, opening, statedKeys, branch, idle, updateWord, closing,
      renderer]

variable (e : Engine)

theorem branch_nil (keys : List String) : e.branch keys [] = e.idle keys ++ e.closing := rfl

theorem branch_cons (keys : List String) (a : BoundAssignment) (as : List BoundAssignment) :
    e.branch keys (a :: as) =
      word e.updateWord :: e.renderer.assignmentList (a :: as) ++ e.closing := rfl

theorem legible_opening (t : TableName) (n : Nat) (columns keys : List String) :
    Legible (e.opening t n columns (e.statedKeys keys)) := by
  have h := e.legible_pieces ⟨t, n, columns, keys, []⟩
  rw [pieces_eq_append] at h
  exact (legible_of_append h).1

theorem legible_branch (keys : List String) (updates : List BoundAssignment) :
    Legible (e.branch keys updates) := by
  have h := e.legible_pieces ⟨⟨"", none⟩, 0, [], keys, updates⟩
  rw [pieces_eq_append] at h
  exact (legible_of_append h).2

theorem indices_branch (keys : List String) (updates : List BoundAssignment) :
    indices (e.branch keys updates) = updates.flatMap Assignment.constants := by
  have hc : indices e.closing = [] := by cases e <;> rfl
  cases updates with
  | nil =>
    have hi : indices (e.idle keys) = [] := by cases e <;> cases keys <;> rfl
    rw [branch_nil, indices_append, hi, hc]
    rfl
  | cons a as =>
    rw [branch_cons, List.cons_append, indices_word, indices_append, hc, List.append_nil,
      indices_assignmentList]

theorem indices_opening (t : TableName) (n : Nat) (columns keys : List String) :
    indices (e.opening t n columns (e.statedKeys keys)) = List.range (n * columns.length) := by
  have h := e.indices_pieces ⟨t, n, columns, keys, []⟩
  rw [pieces_eq_append, indices_append, indices_branch] at h
  exact List.append_cancel_right h

/-- The text before the updates. -/
def openingText (e : Engine) (t : TableName) (rowCount : Nat) (columns keys : List String) :
    String :=
  e.renderer.write (e.opening t rowCount columns keys)

/-- The text for the updates. -/
def branchText (e : Engine) (keys : List String) (updates : List BoundAssignment) : String :=
  e.renderer.write (e.branch keys updates)

theorem statement_eq_append (u : Upsert) :
    e.renderer.statement u =
      e.openingText u.table u.rowCount u.columns (e.statedKeys u.keys) ++
        e.branchText u.keys u.updates := by
  rw [statement_eq_write, pieces_eq_append, Spelling.write_append]
  rfl

/-- No engine writes an incoming value as it writes that nothing is updated. -/
theorem branchText_fromSource_ne (keys : List String) (c : String) (as : List BoundAssignment) :
    e.branchText keys (.fromSource c :: as) ≠ e.branchText keys [] := by
  intro h
  have hr : e.read (e.branchText keys (.fromSource c :: as)) = e.read (e.branchText keys []) := by
    rw [h]
  rw [branchText, branchText, e.read_write (e.legible_branch _ _),
    e.read_write (e.legible_branch _ _), Option.some.injEq, branch_cons, branch_nil,
    Spelling.assignmentList, List.map_cons, separated_cons] at hr
  cases e with
  | mysql =>
    cases keys with
    | nil => cases hr
    | cons key keys =>
      -- both begin with a name set to something: to a call on the left, to a name on the right
      simp [updateWord, idle, closing, Spelling.assignment, Assignment.fromSource,
        Spelling.formula, Spelling.operand, renderer, Dialect.mysql, Dialect.ofForm,
        Token.map] at hr
  | _ => cases hr

end Engine
end UpsertSql
