import UpsertSql.Formula
import UpsertSql.Schema.Basic

/-! A column and the formula it is set to. Analysis yields assignments over values and columns;
binding turns them into assignments over parameter numbers and storage names. -/
namespace UpsertSql

structure Assignment (κ γ : Type) where
  column : γ
  formula : Formula (Operand κ γ)
  deriving DecidableEq

/-- Constants are values still and columns know their property. -/
abbrev KnownAssignment := Assignment Value Column

/-- Constants are positions in the parameter list and columns are storage names. -/
abbrev BoundAssignment := Assignment Nat String

namespace Assignment
variable {κ γ : Type}

def constants (a : Assignment κ γ) : List κ := a.formula.constants

/-- The column takes its incoming value. -/
def fromSource (c : γ) : Assignment κ γ := ⟨c, .single (.column c .source)⟩

end Assignment
end UpsertSql
