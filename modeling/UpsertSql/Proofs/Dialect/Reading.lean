import UpsertSql.Engine
import UpsertSql.Proofs.Text.Legible

/-! Every statement an engine is given can be read back token by token, with its names and
parameters where they were put. -/
namespace UpsertSql
open Piece

@[simp]
theorem legible_table (t : TableName) : Legible (table t) := by
  obtain ⟨n, q⟩ := t
  cases q with
  | none => simp [table]
  | some q =>
    simp [table]
    decide

@[simp]
theorem legible_columnList (columns : List String) : Legible (columnList columns) := by
  refine legible_separated (by decide) ?_
  simp

theorem legible_valueRow (columnCount r : Nat) : Legible (valueRow columnCount r) := by
  have hp : Legible (separated ", " ((List.range columnCount).map fun c =>
      [parameter (r * columnCount + c)])) := by
    refine legible_separated (by decide) ?_
    simp
  simp [valueRow, hp]
  decide

@[simp]
theorem legible_valueRows (rowCount columnCount : Nat) :
    Legible (valueRows rowCount columnCount) := by
  refine legible_separated (by decide) ?_
  simp [legible_valueRow]

namespace Spelling
variable {sp : Spelling} (h : ∀ a, Legible (sp.operand a))
include h

theorem legible_formula (e : Formula (Operand Nat String)) : Legible (sp.formula e) := by
  cases e with
  | single a => exact h a
  | arith op a b =>
    have hop : Plain s!" {op.symbol} " := by cases op <;> decide
    simp only [formula, legible_append_word, h, hop, and_self]

theorem legible_assignmentList (as : List BoundAssignment) : Legible (sp.assignmentList as) := by
  refine legible_separated (by decide) ?_
  simp only [List.mem_map, forall_exists_index, and_imp, forall_apply_eq_imp_iff₂]
  intro a _
  simp [assignment, legible_formula h]
  decide

theorem legible_onConflict (u : Upsert) : Legible (sp.onConflict u) := by
  have hu := legible_assignmentList h u.updates
  by_cases h : u.updates = []
  · simp [onConflict, h, targetAlias]
    decide
  · simp [onConflict, h, targetAlias, hu]
    decide

theorem legible_onDuplicateKey (u : Upsert) : Legible (sp.onDuplicateKey u) := by
  have hu := legible_assignmentList h u.updates
  by_cases h : u.updates = []
  · cases hk : u.keys.head? <;> simp [onDuplicateKey, h, hk] <;> decide
  · simp [onDuplicateKey, h, hu]
    decide

theorem legible_merge (u : Upsert) : Legible (sp.merge u) := by
  have hu := legible_assignmentList h u.updates
  have hk : Legible (separated " AND " (u.keys.map keyEquality)) := by
    refine legible_separated (by decide) ?_
    simp [keyEquality, targetAlias, sourceAlias]
    exact fun _ _ => by decide
  have hc : Legible (separated ", " (u.columns.map sourceColumn)) := by
    refine legible_separated (by decide) ?_
    simp [sourceColumn, sourceAlias]
    exact fun _ _ => by decide
  by_cases h : u.updates = []
  · simp [merge, h, targetAlias, sourceAlias, hk, hc]
    decide
  · simp [merge, h, targetAlias, sourceAlias, hu, hk, hc]
    decide

end Spelling

namespace Engine

/-- How an engine tells placeholders from other text. -/
def marker : Engine → Marker
  | postgres => { first := '$' }
  | sqlite => { first := '?' }
  | mysql => { first := '?', numbered := false }
  | sqlserver => { first := '@', more := ['p'] }

/-- The tokens of a statement text. Nothing is given for a text that ends inside a quoted name. -/
def read (e : Engine) (text : String) : Option (List (Token String)) :=
  (e.renderer.quotes.lexemes text.toList).map e.marker.tokens

/-- The statement before it is written down. -/
def pieces : Engine → Upsert → List Piece
  | postgres => Dialect.postgres.onConflict
  | sqlite => Dialect.sqlite.onConflict
  | mysql => Dialect.mysql.onDuplicateKey
  | sqlserver => Dialect.sqlserver.merge

theorem statement_eq_write (e : Engine) (u : Upsert) :
    e.renderer.statement u = e.renderer.write (e.pieces u) := by
  cases e <;> rfl

theorem legible_operand (e : Engine) (a : Operand Nat String) :
    Legible (e.renderer.operand a) := by
  cases a with
  | constant i => cases e <;> simp [Spelling.operand]
  | column c side =>
    cases e <;> cases side <;>
      simp [Spelling.operand, renderer, Dialect.postgres, Dialect.sqlite, Dialect.mysql,
        Dialect.sqlserver, Dialect.ofForm, targetAlias, sourceAlias] <;> decide

theorem legible_pieces (e : Engine) (u : Upsert) : Legible (e.pieces u) := by
  cases e with
  | postgres => exact Spelling.legible_onConflict postgres.legible_operand u
  | sqlite => exact Spelling.legible_onConflict sqlite.legible_operand u
  | mysql => exact Spelling.legible_onDuplicateKey mysql.legible_operand u
  | sqlserver => exact Spelling.legible_merge sqlserver.legible_operand u

/-- The digits of a placeholder, where it has any. -/
def digits : Engine → Nat → List Char
  | postgres, i => Nat.toDigits 10 (i + 1)
  | sqlite, i => Nat.toDigits 10 (i + 1)
  | mysql, _ => []
  | sqlserver, i => Nat.toDigits 10 i

theorem toList_placeholder (e : Engine) (i : Nat) :
    (e.renderer.placeholder i).toList = e.marker.first :: (e.marker.more ++ e.digits i) := by
  cases e <;>
    simp [renderer, Dialect.postgres, Dialect.sqlite, Dialect.mysql, Dialect.sqlserver,
      Dialect.ofForm, marker, digits, toString, Nat.repr]

theorem admits_digits (e : Engine) (i : Nat) : e.marker.Admits (e.digits i) where
  digits c hc := by
    cases e with
    | mysql => cases hc
    | _ => exact Nat.isDigit_of_mem_toDigits (by decide) (by decide) hc
  numbered h := by
    cases e with
    | mysql => rfl
    | _ => cases h

theorem clear (e : Engine) : e.renderer.Clear e.marker where
  opening := by cases e <;> decide
  closing := by cases e <;> decide
  first := by cases e <;> decide
  unquoted i := by
    have hq : e.renderer.quotes.opening ∉ e.marker.first :: e.marker.more := by
      cases e <;> decide
    have hn : e.renderer.quotes.opening.isDigit = false := by cases e <;> decide
    rw [e.toList_placeholder, ← List.cons_append]
    intro hm
    rcases List.mem_append.1 hm with hm | hm
    · exact hq hm
    · simp [(e.admits_digits i).digits _ hm] at hn
  spelled i := ⟨e.digits i, e.toList_placeholder i, e.admits_digits i⟩

theorem read_write (e : Engine) {ps : List Piece} (h : Legible ps) :
    e.read (e.renderer.write ps) = some ((reading ps).map (.map e.renderer.placeholder)) := by
  rw [read, Spelling.lexemes_write e.clear h, Option.map_some, Spelling.tokens_lexemes e.clear h]

/-- Reading a statement gives its pieces back. -/
theorem read_statement (e : Engine) (u : Upsert) :
    e.read (e.renderer.statement u) =
      some ((reading (e.pieces u)).map (.map e.renderer.placeholder)) := by
  rw [statement_eq_write, e.read_write (e.legible_pieces u)]

end Engine
end UpsertSql
