import UpsertSql.Expr

/-! The update expressions every engine can carry out: one operand, or one operation on two. The
same shape serves before and after binding, which only changes what the operands hold. -/
namespace UpsertSql

inductive Formula (α : Type) where
  | single (a : α)
  | arith (op : Arith) (left right : α)
  deriving DecidableEq

namespace Formula
variable {α β σ : Type}

/-- Left before right, as they are written. -/
def operands : Formula α → List α
  | single a => [a]
  | arith _ l r => [l, r]

def map (f : α → β) : Formula α → Formula β
  | single a => single (f a)
  | arith op l r => arith op (f l) (f r)

/-- Replaces the operands in order, passing a state from each to the next. -/
def mapAccum (f : σ → α → σ × β) (s : σ) : Formula α → σ × Formula β
  | single a =>
    let (s, b) := f s a
    (s, single b)
  | arith op l r =>
    let (s, l) := f s l
    let (s, r) := f s r
    (s, arith op l r)

end Formula

/-- A constant, held as `κ`, or a column of one of the two rows, held as `γ`. -/
inductive Operand (κ γ : Type) where
  | constant (k : κ)
  | column (c : γ) (side : Side)
  deriving DecidableEq

def Operand.constant? {κ γ : Type} : Operand κ γ → Option κ
  | constant k => some k
  | column _ _ => none

/-- What a formula does. -/
inductive FormulaKind where
  | constant
  | column
  | arith (op : Arith)
  deriving DecidableEq

def FormulaKind.text : FormulaKind → String
  | constant => "Constant"
  | column => "MemberAccess"
  | arith .add => "Add"
  | arith .sub => "Subtract"
  | arith .mul => "Multiply"
  | arith .div => "Divide"

namespace Formula
variable {κ γ : Type}

def kind : Formula (Operand κ γ) → FormulaKind
  | single (.constant _) => .constant
  | single (.column _ _) => .column
  | arith op _ _ => .arith op

/-- The constants in operand order. -/
def constants (e : Formula (Operand κ γ)) : List κ := e.operands.filterMap Operand.constant?

end Formula
end UpsertSql
