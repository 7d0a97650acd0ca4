import UpsertSql.Meaning.Evaluation
import UpsertSql.Proofs.Command

/-! The updates of a statement compute what the policy says. Evaluating a bound formula over the
parameter list agrees with evaluating the expression it was written as, in every meeting of two
rows and however the engine computes. -/
namespace UpsertSql
variable {E : Type}

theorem Operand.eval_map {κ κ' γ γ' : Type} (f : κ → κ') (g : γ → γ') (k : κ' → Value)
    (name : γ' → String) (m : Meeting) (a : Operand κ γ) :
    (a.map f g).eval k name m = a.eval (k ∘ f) (name ∘ g) m := by
  cases a <;> rfl

theorem Formula.eval_map {κ κ' γ γ' : Type} (I : Arithmetic) (f : κ → κ') (g : γ → γ')
    (k : κ' → Value) (name : γ' → String) (m : Meeting) (e : Formula (Operand κ γ)) :
    (e.map (Operand.map f g)).eval I (Operand.eval k name m) =
      e.eval I (Operand.eval (k ∘ f) (name ∘ g) m) := by
  cases e with
  | single a => exact a.eval_map f g k name m
  | arith op a b => simp only [map, eval, Operand.eval_map]

/-- An assignment that the parameters turn back into the one it was bound from writes its value. -/
theorem Assignment.evalBound_of_recall {b : BoundAssignment} {a : KnownAssignment}
    {ps : List Value} (h : b.map (ps[·]?) id = a.map some Column.name) (I : Arithmetic)
    (m : Meeting) : b.evalBound I ps m = a.eval I m := by
  calc
    b.evalBound I ps m
        = (b.map (ps[·]?) id).formula.eval I (Operand.eval (·.getD .null) id m) :=
          (b.formula.eval_map I (ps[·]?) id (·.getD .null) id m).symm
    _ = (a.map some Column.name).formula.eval I (Operand.eval (·.getD .null) id m) := by rw [h]
    _ = a.eval I m := a.formula.eval_map I some Column.name (·.getD .null) id m

theorem Assignment.bound_of_recall {b : BoundAssignment} {a : KnownAssignment}
    {ps : List Value} (h : b.map (ps[·]?) id = a.map some Column.name) {i : Nat}
    (hi : i ∈ b.constants) : i < ps.length := by
  have hc : b.constants.map (ps[·]?) = a.constants.map some := by
    rw [← constants_map (ps[·]?) id, h, constants_map]
  have hm : ps[i]? ∈ a.constants.map some := hc ▸ List.mem_map_of_mem hi
  obtain ⟨v, -, hv⟩ := List.mem_map.1 hm
  exact (List.getElem?_eq_some_iff.1 hv.symm).1

namespace Schema
variable {s : Schema E}

theorem Names.eval {e : Expr} {a : Operand Value Column} (h : s.Names e a) (I : Arithmetic)
    (m : Meeting) : e.eval? I s m = some (a.eval id Column.name m) := by
  cases h with
  | value v => rw [Expr.eval?]; rfl
  | property hc hs => rw [Expr.eval?, first_of_find? hc]; rfl

theorem Shapes.eval {e : Expr} {f : Formula (Operand Value Column)} (h : s.Shapes e f)
    (I : Arithmetic) (m : Meeting) :
    e.eval? I s m = some (f.eval I (Operand.eval id Column.name m)) := by
  cases h with
  | single ha => exact ha.eval I m
  | arith op ha hb => rw [Expr.eval?, ha.eval, hb.eval]; rfl

end Schema

/-- The assignment sets the first column declared with the property to the expression. -/
structure Assignment.Carries (s : Schema E) (parameters : List Value) (property : String × Expr)
    (b : BoundAssignment) : Prop where
  column : (s.columns.find? (·.property == property.1)).map Column.name = some b.column
  bound : ∀ i ∈ b.constants, i < parameters.length
  value : ∀ I m, property.2.eval? I s m = some (b.evalBound I parameters m)

/-- The updates do what the policy says, in its order. -/
def Policy.CarriedOut (s : Schema E) (keys : List Column) (updates : List BoundAssignment)
    (parameters : List Value) : Policy → Prop
  | .updateAll =>
    updates = (s.insertColumns.filter (· ∉ keys)).map fun c =>
      ⟨c.name, .single (.column c.name .source)⟩
  | .update spec =>
    List.Forall₂ (Assignment.Carries s parameters) spec.assignments updates
  | .doNothing => updates = []

theorem forall₂_carries {s : Schema E} {ps : List Value} {l : List (String × Expr)}
    {as : List KnownAssignment} {bs : List BoundAssignment} (hl : List.Forall₂ s.Sets l as)
    (hb : bs.map (Assignment.map (ps[·]?) id) = as.map (Assignment.map some Column.name)) :
    List.Forall₂ (Assignment.Carries s ps) l bs := by
  induction hl generalizing bs with
  | nil => simpa using hb
  | @cons property a l as ha hl ih =>
    cases bs with
    | nil => simp at hb
    | cons b bs =>
      simp only [List.map_cons, List.cons.injEq] at hb
      refine .cons ⟨?_, fun i hi => Assignment.bound_of_recall hb.1 hi, fun I m => ?_⟩ (ih hb.2)
      · have hc : b.column = a.column.name := congrArg Assignment.column hb.1
        rw [Schema.first_of_find? ha.find, hc]
        rfl
      · rw [ha.shapes.eval, Assignment.evalBound_of_recall hb.1]
        rfl

theorem numberAssignments_fromSource (n : Nat) (cs : List Column) :
    (numberAssignments n (cs.map .fromSource)).2 = cs.map fun c => .fromSource c.name := by
  induction cs generalizing n with
  | nil => rfl
  | cons c cs ih =>
    rw [List.map_cons, numberAssignments_cons, ih]
    rfl

/-- Every policy that analysis accepts is carried out, whatever the rows and the key. -/
theorem bind_carries_out_policy (r : Request E) {keys : List Column} {as : List KnownAssignment}
    (hk : r.schema.resolveKeys r.keys = .ok keys) (ha : r.schema.analyze keys r.policy = .ok as)
    (hr : r.rows ≠ []) :
    ∃ u parameters, r.bind = .ok (u, parameters) ∧
      r.policy.CarriedOut r.schema keys u.updates parameters := by
  have hp : r.plan = .ok ⟨keys, as⟩ := Request.plan_eq_ok.2 ⟨hk, ha⟩
  refine ⟨_, _, Request.bind_eq_ok.2 ⟨_, hp, hr, rfl, rfl⟩, ?_⟩
  cases h : r.policy with
  | updateAll =>
    rw [h] at ha
    cases ha
    exact numberAssignments_fromSource _ _
  | update spec =>
    rw [h, Schema.analyze_update_eq_ok] at ha
    exact forall₂_carries ha.2.1
      (numberAssignments_recall _ _ (r.schema.constants_standing r.rows as))
  | doNothing =>
    rw [h] at ha
    cases ha
    rfl

theorem bind_carries_out_hits :
    Request.hits.rows ≠ [] ∧ ∃ u parameters, Request.hits.bind = .ok (u, parameters) ∧
      Request.hits.policy.CarriedOut Request.hits.schema [⟨"page", "page", false⟩] u.updates
        parameters :=
  ⟨List.cons_ne_nil _ _, bind_carries_out_policy .hits rfl rfl (List.cons_ne_nil _ _)⟩

end UpsertSql
