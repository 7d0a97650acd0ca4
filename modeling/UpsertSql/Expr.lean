import UpsertSql.Value

/-! Update expressions as callers write them: values and properties of the incoming (source) and the
existing (target) row, combined by operators and calls. Far more can be written than compiles. -/
namespace UpsertSql

inductive Side where
  | source | target
  deriving DecidableEq

def Side.word : Side → String
  | source => "source"
  | target => "target"

/-- The four operators an update may compute with. -/
inductive Arith where
  | add | sub | mul | div
  deriving DecidableEq

def Arith.symbol : Arith → String
  | add => "+"
  | sub => "-"
  | mul => "*"
  | div => "/"

inductive BinaryOp where
  | arith (op : Arith)
  | mod | eq | ne | lt | gt | and | or | concat
  deriving DecidableEq

namespace BinaryOp

def symbol : BinaryOp → String
  | arith op => op.symbol
  | mod => "%"
  | eq => "="
  | ne => "!="
  | lt => "<"
  | gt => ">"
  | and => "AND"
  | or => "OR"
  | concat => "||"

def isArith : BinaryOp → Bool
  | arith _ => true
  | _ => false

end BinaryOp

/-- What combines expressions: an operator or a named function. -/
inductive Combinator where
  | operator (op : BinaryOp)
  | call (function : String)
  deriving DecidableEq

def Combinator.describe : Combinator → String
  | operator op => s!"operator `{op.symbol}`"
  | call function => s!"function call `{function}`"

inductive Expr where
  | value (v : Value)
  | property (side : Side) (name : String)
  | binary (op : BinaryOp) (left right : Expr)
  | call (function : String) (args : List Expr)

namespace Expr

def source (name : String) : Expr := property .source name
def target (name : String) : Expr := property .target name

instance : Add Expr := ⟨binary (.arith .add)⟩
instance : Sub Expr := ⟨binary (.arith .sub)⟩
instance : Mul Expr := ⟨binary (.arith .mul)⟩
instance : Div Expr := ⟨binary (.arith .div)⟩
instance : Mod Expr := ⟨binary .mod⟩

/-- The outermost operation in words. A value is named by its type alone. -/
def describe : Expr → String
  | value v => s!"{v.typeName} value"
  | property side name => s!"{side.word}.{name}"
  | binary op _ _ => (Combinator.operator op).describe
  | call function _ => (Combinator.call function).describe

mutual
protected def beq : Expr → Expr → Bool
  | value v, value w => v == w
  | property s p, property t q => s == t && p == q
  | binary o l r, binary o' l' r' => o == o' && l.beq l' && r.beq r'
  | call f as, call g bs => f == g && Expr.beqArgs as bs
  | _, _ => false
protected def beqArgs : List Expr → List Expr → Bool
  | [], [] => true
  | a :: as, b :: bs => a.beq b && Expr.beqArgs as bs
  | _, _ => false
end

instance : BEq Expr := ⟨Expr.beq⟩

mutual
/-- The expression and all below it, each before its own operands. -/
def subterms : Expr → List Expr
  | e@(value _) => [e]
  | e@(property _ _) => [e]
  | e@(binary _ l r) => e :: (l.subterms ++ r.subterms)
  | e@(call _ args) => e :: Expr.subtermsArgs args
def subtermsArgs : List Expr → List Expr
  | [] => []
  | a :: as => a.subterms ++ Expr.subtermsArgs as
end

end Expr
end UpsertSql
