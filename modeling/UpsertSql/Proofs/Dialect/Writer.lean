import UpsertSql.Command
import UpsertSql.Dialect.Writer
import UpsertSql.Proofs.Text.Legible

/-! The parts of a statement, asked for one by one, read as they stand in statements. So an engine
can be put to use in place of its dialect, whether its renderer answers or it answers itself. -/
namespace UpsertSql
open Piece

namespace Spelling
variable (sp : Spelling)

theorem write_separated (separator : String) (items : List (List Piece)) :
    sp.write (separated separator items) = separator.intercalate (items.map sp.write) := by
  induction items with
  | nil => rw [separated_nil, write_nil, List.map_nil, String.intercalate_nil]
  | cons x l ih =>
    cases l with
    | nil =>
      rw [separated_cons, List.flatMap_nil, List.append_nil, List.map_singleton,
        String.intercalate_singleton]
    | cons y l =>
      have hs : separated separator (x :: y :: l) =
          x ++ word separator :: separated separator (y :: l) := by
        simp only [separated_cons, List.flatMap_cons, List.cons_append]
      rw [hs, write_append, write_cons, ih, List.map_cons, List.map_cons, List.map_cons,
        String.intercalate_cons_cons, String.append_assoc]
      rfl

/-- Texts in a row are pieces in a row, written down. -/
theorem intercalate_map {α : Type} {text : α → String} {pieces : α → List Piece}
    (h : ∀ a, text a = sp.write (pieces a)) (separator : String) (items : List α) :
    separator.intercalate (items.map text) =
      sp.write (separated separator (items.map pieces)) := by
  rw [write_separated, List.map_map]
  exact congrArg _ (List.map_congr_left fun a _ => h a)

end Spelling

namespace Dialect
variable (d : Dialect)

theorem writer_table (t : TableName) : d.writer.table t = d.write (table t) := by
  obtain ⟨name, qualifier⟩ := t
  cases qualifier with
  | none => exact (Spelling.write_singleton (.name name)).symm
  | some q =>
    rw [table, Spelling.write_cons, Spelling.write_cons, Spelling.write_singleton,
      ← String.append_assoc]
    rfl

theorem writer_operand (v : Operand Nat String) : d.writer.operand v = d.write (d.operand v) := by
  cases v with
  | constant i => exact (Spelling.write_singleton (.parameter i)).symm
  | column c side =>
    cases side with
    | source =>
      rw [Spelling.operand, Spelling.write_append, Spelling.write_cons, ← String.append_assoc]
      rfl
    | target =>
      rw [Spelling.operand, Spelling.write_append, Spelling.write_singleton]
      rfl

theorem writer_formula (f : Formula (Operand Nat String)) :
    d.writer.formula f = d.write (d.formula f) := by
  cases f with
  | single a => exact d.writer_operand a
  | arith op l r =>
    rw [Spelling.formula, Spelling.write_append, Spelling.write_cons, ← d.writer_operand,
      ← d.writer_operand]
    -- as a piece the operator is one word with the blanks on either side of it
    change d.writer.operand l ++ " " ++ op.symbol ++ " " ++ d.writer.operand r =
      d.writer.operand l ++ (" " ++ op.symbol ++ " " ++ d.writer.operand r)
    simp only [String.append_assoc]

theorem writer_columnList (columns : List String) :
    d.writer.columnList columns = d.write (columnList columns) := by
  refine d.intercalate_map (fun c => ?_) ", " columns
  exact (Spelling.write_singleton (.name c)).symm

theorem valueRow_eq_write (columnCount r : Nat) :
    "(" ++ ", ".intercalate ((List.range columnCount).map fun c =>
        d.placeholder (r * columnCount + c)) ++ ")" =
      d.write (valueRow columnCount r) := by
  have hp (c : Nat) : d.placeholder (r * columnCount + c) =
      d.write [parameter (r * columnCount + c)] := (Spelling.write_singleton (.parameter _)).symm
  rw [d.intercalate_map hp, valueRow, List.cons_append, Spelling.write_cons,
    Spelling.write_append, Spelling.write_singleton, ← String.append_assoc]
  rfl

theorem writer_valueRows (rowCount columnCount : Nat) :
    d.writer.valueRows rowCount columnCount = d.write (valueRows rowCount columnCount) :=
  d.intercalate_map (d.valueRow_eq_write columnCount) ", " (List.range rowCount)

theorem assignment_eq_write (a : BoundAssignment) :
    d.writer.quote a.column ++ " = " ++ d.writer.formula a.formula =
      d.write (d.assignment a) := by
  rw [d.writer_formula, Spelling.assignment, Spelling.write_cons, Spelling.write_cons,
    ← String.append_assoc]
  rfl

theorem writer_assignmentList (as : List BoundAssignment) :
    d.writer.assignmentList as = d.write (d.assignmentList as) :=
  d.intercalate_map d.assignment_eq_write ", " as

/-- What the writer gives for a part is what the dialect puts into its statements. -/
structure WrittenBy (w : Writer) : Prop where
  name : w.name = d.name
  quotes : w.quotes = d.quotes
  quote : ∀ s, w.quote s = d.quotes.quote s
  table : ∀ t, w.table t = d.write (Piece.table t)
  placeholder : ∀ i, w.placeholder i = d.placeholder i
  sourceOpening : w.sourceOpening = d.write d.sourceOpening
  sourceClosing : w.sourceClosing = d.write d.sourceClosing
  targetOpening : w.targetOpening = d.write d.targetOpening
  operand : ∀ v, w.operand v = d.write (d.operand v)
  formula : ∀ f, w.formula f = d.write (d.formula f)
  columnList : ∀ columns, w.columnList columns = d.write (Piece.columnList columns)
  valueRows : ∀ rowCount columnCount,
    w.valueRows rowCount columnCount = d.write (Piece.valueRows rowCount columnCount)
  assignmentList : ∀ as, w.assignmentList as = d.write (d.assignmentList as)
  statement : ∀ u, w.statement u = d.statement u

theorem writtenBy_writer : d.WrittenBy d.writer where
  name := rfl
  quotes := rfl
  quote _ := rfl
  table := d.writer_table
  placeholder _ := rfl
  sourceOpening := rfl
  sourceClosing := rfl
  targetOpening := rfl
  operand := d.writer_operand
  formula := d.writer_formula
  columnList := d.writer_columnList
  valueRows := d.writer_valueRows
  assignmentList := d.writer_assignmentList
  statement _ := rfl

end Dialect

namespace Engine

/-- The engine can be used for the dialect: it gives the same texts, which are those of the
statements, and compiles to the same commands. -/
structure StandsFor (e : Engine) (d : Dialect) : Prop where
  writer : e.writer = d.writer
  parts : d.WrittenBy e.writer
  compile : ∀ {E : Type} (r : Request E), e.toDialect.compile r = d.compile r

theorem writer_eq_renderer (e : Engine) : e.writer = e.renderer.writer := rfl

theorem toDialect_eq_renderer (e : Engine) : e.toDialect = e.renderer := rfl

theorem standsFor_renderer (e : Engine) : e.StandsFor e.renderer where
  writer := e.writer_eq_renderer
  parts := by
    rw [writer_eq_renderer]
    exact e.renderer.writtenBy_writer
  compile r := by rw [toDialect_eq_renderer]

end Engine

/-- Every engine stands for its renderer, which is the dialect of that name. -/
theorem engines_stand_for_dialects :
    (∀ e : Engine, e.StandsFor e.renderer) ∧
    Engine.postgres.StandsFor .postgres ∧
    Engine.sqlite.StandsFor .sqlite ∧
    Engine.mysql.StandsFor .mysql ∧
    Engine.sqlserver.StandsFor .sqlserver := by
  refine ⟨Engine.standsFor_renderer, ?_, ?_, ?_, ?_⟩
  · exact Engine.standsFor_renderer .postgres
  · exact Engine.standsFor_renderer .sqlite
  · exact Engine.standsFor_renderer .mysql
  · exact Engine.standsFor_renderer .sqlserver

end UpsertSql
