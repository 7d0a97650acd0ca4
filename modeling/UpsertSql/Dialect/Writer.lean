import UpsertSql.Engine

/-! The parts of a statement as texts, one by one. A dialect gives some of them and the rest are put
together from those. An engine asked for one by itself has nine of them from its renderer. -/
namespace UpsertSql

/-- A part that is not given is put together from those above it. -/
structure Writer where
  name : String
  quotes : Quotes
  quote : String → String := quotes.quote
  table : TableName → String := fun t =>
    match t.qualifier with
    | some q => quote q ++ "." ++ quote t.name
    | none => quote t.name
  placeholder : Nat → String
  sourceOpening : String
  sourceClosing : String
  targetOpening : String
  operand : Operand Nat String → String := fun
    | .constant i => placeholder i
    | .column c .source => sourceOpening ++ quote c ++ sourceClosing
    | .column c .target => targetOpening ++ quote c
  formula : Formula (Operand Nat String) → String := fun
    | .single a => operand a
    | .arith op l r => operand l ++ " " ++ op.symbol ++ " " ++ operand r
  columnList : List String → String := fun columns => ", ".intercalate (columns.map quote)
  /-- Row `r` holds the parameters from `r * columnCount` on. -/
  valueRows : Nat → Nat → String := fun rowCount columnCount =>
    ", ".intercalate ((List.range rowCount).map fun r =>
      "(" ++ ", ".intercalate ((List.range columnCount).map fun c =>
        placeholder (r * columnCount + c)) ++ ")")
  assignmentList : List BoundAssignment → String := fun as =>
    ", ".intercalate (as.map fun a => quote a.column ++ " = " ++ formula a.formula)
  statement : Upsert → String

def Dialect.writer (d : Dialect) : Writer where
  name := d.name
  quotes := d.quotes
  placeholder := d.placeholder
  sourceOpening := d.write d.sourceOpening
  sourceClosing := d.write d.sourceClosing
  targetOpening := d.write d.targetOpening
  statement := d.statement

/-- Operands, formulas and lists are not asked of the renderer. -/
def Engine.writer (e : Engine) : Writer where
  name := e.renderer.writer.name
  quotes := e.renderer.writer.quotes
  quote s := e.renderer.writer.quote s
  table t := e.renderer.writer.table t
  placeholder i := e.renderer.writer.placeholder i
  sourceOpening := e.renderer.writer.sourceOpening
  sourceClosing := e.renderer.writer.sourceClosing
  targetOpening := e.renderer.writer.targetOpening
  statement u := e.renderer.writer.statement u

end UpsertSql
