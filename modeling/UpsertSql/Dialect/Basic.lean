import UpsertSql.Piece
import UpsertSql.Text.Quoted

/-! What tells engines apart: how names, parameters and the columns of the two rows are spelled, and
the form of the whole statement. -/
namespace UpsertSql

structure Spelling where
  quotes : Quotes := .double
  placeholder : Nat → String
  /-- What stands before and after the name of an incoming column. -/
  sourceOpening : List Piece
  sourceClosing : List Piece := []
  /-- What stands before the name of an existing column. -/
  targetOpening : List Piece := [.targetAlias, .word "."]

namespace Spelling

def writePiece (sp : Spelling) : Piece → String
  | .word s => s
  | .name s => sp.quotes.quote s
  | .parameter i => sp.placeholder i

def write (sp : Spelling) (ps : List Piece) : String := String.join (ps.map sp.writePiece)

def operand (sp : Spelling) : Operand Nat String → List Piece
  | .constant i => [.parameter i]
  | .column c .source => sp.sourceOpening ++ .name c :: sp.sourceClosing
  | .column c .target => sp.targetOpening ++ [.name c]

def formula (sp : Spelling) : Formula (Operand Nat String) → List Piece
  | .single a => sp.operand a
  | .arith op l r => sp.operand l ++ .word s!" {op.symbol} " :: sp.operand r

def assignment (sp : Spelling) (a : BoundAssignment) : List Piece :=
  .name a.column :: .word " = " :: sp.formula a.formula

def assignmentList (sp : Spelling) (as : List BoundAssignment) : List Piece :=
  Piece.separated ", " (as.map sp.assignment)

end Spelling

structure Dialect extends Spelling where
  name : String
  statement : Upsert → String

/-- The dialect that writes a form of statement in a spelling. -/
def Dialect.ofForm (name : String) (sp : Spelling) (form : Spelling → Upsert → List Piece) :
    Dialect where
  toSpelling := sp
  name := name
  statement u := sp.write (form sp u)

end UpsertSql
