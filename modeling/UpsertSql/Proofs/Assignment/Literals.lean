import UpsertSql.Proofs.Assignment.Analysis
import UpsertSql.Proofs.Assignment.Numbering

/-! Analysis keeps every literal of a policy, in the order in which it is written. -/
namespace UpsertSql

/-- The literals of an expression, at whatever depth. -/
def Expr.literals (e : Expr) : List Value :=
  e.subterms.filterMap fun
    | .value v => some v
    | _ => none

def Policy.literals : Policy → List Value
  | .update spec => spec.assignments.flatMap (·.2.literals)
  | _ => []

namespace Schema
variable {E : Type} {s : Schema E}

theorem Names.literals {e : Expr} {a : Operand Value Column} (h : s.Names e a) :
    a.constants = e.literals := by
  cases h with
  | value v => rw [Expr.literals, Expr.subterms]; rfl
  | property hc hs => rw [Expr.literals, Expr.subterms]; rfl

theorem Shapes.literals {e : Expr} {f : Formula (Operand Value Column)} (h : s.Shapes e f) :
    f.constants = e.literals := by
  cases h with
  | single ha => rw [Formula.constants_single, ha.literals]
  | arith op ha hb =>
    rw [Formula.constants_arith, ha.literals, hb.literals]
    simp [Expr.literals, Expr.subterms]

theorem constants_of_sets {l : List (String × Expr)} {as : List KnownAssignment}
    (h : List.Forall₂ s.Sets l as) :
    as.flatMap Assignment.constants = l.flatMap (·.2.literals) := by
  induction h with
  | nil => rfl
  | cons ha hl ih =>
    rw [List.flatMap_cons, List.flatMap_cons, ih, ← ha.shapes.literals]
    rfl

theorem constants_eq_literals {keys : List Column} {policy : Policy} {as : List KnownAssignment}
    (h : s.analyze keys policy = .ok as) :
    as.flatMap Assignment.constants = policy.literals := by
  cases policy with
  | updateAll =>
    cases h
    rw [defaultAssignments, List.flatMap_map]
    exact List.flatMap_eq_nil_iff.2 fun c _ => rfl
  | update spec =>
    exact constants_of_sets (analyze_update_eq_ok.1 h).2.1
  | doNothing =>
    cases h
    rfl

end Schema
end UpsertSql
