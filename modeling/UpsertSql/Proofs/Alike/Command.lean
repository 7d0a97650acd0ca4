import UpsertSql.Proofs.Alike.Analysis
import UpsertSql.Proofs.Command

/-! Requests that are alike are bound alike: the numbers of the constants and the names of the
columns stand in the same places of the upsert, and the parameters correspond one by one. -/
namespace UpsertSql
open List (Forall₂)
open Relator (BiUnique)

variable {K : Value → Value → Prop} {T N : String → String → Prop}

namespace Operand.Alike
variable {a b : Operand Value Column} (h : Operand.Alike K (Column.Alike N) a b)
include h

theorem constants : Forall₂ K a.constants b.constants := by
  cases h with
  | constant hk => exact .cons hk .nil
  | column side hc => exact .nil

theorem number (n : Nat) : Operand.Alike Eq N (a.number n).2 (b.number n).2 := by
  cases h with
  | constant hk => exact .constant rfl
  | column side hc => exact .column side hc.name

end Operand.Alike

namespace Formula.Alike
variable {e f : Formula (Operand Value Column)}
  (h : Formula.Alike (Operand.Alike K (Column.Alike N)) e f)
include h

theorem constants : Forall₂ K e.constants f.constants := by
  cases h with
  | single ha =>
    rw [Formula.constants_single, Formula.constants_single]
    exact ha.constants
  | arith op ha hb =>
    rw [Formula.constants_arith, Formula.constants_arith]
    exact List.rel_append ha.constants hb.constants

/-- Both sides hold the same number of constants, so the right operand is numbered from the same
number on. -/
theorem number (n : Nat) :
    Formula.Alike (Operand.Alike Eq N) (e.mapAccum Operand.number n).2
      (f.mapAccum Operand.number n).2 := by
  cases h with
  | single ha => exact .single (ha.number n)
  | @arith op a b a' b' ha hb =>
    have hn : (a.number n).1 = (a'.number n).1 := by
      rw [a.number_next, a'.number_next, ha.constants.length_eq]
    have hb' : Operand.Alike Eq N (b.number (a.number n).1).2 (b'.number (a'.number n).1).2 := by
      rw [hn]
      exact hb.number _
    exact .arith op (ha.number n) hb'

end Formula.Alike

theorem forall₂_constants {as bs : List KnownAssignment}
    (h : Forall₂ (Assignment.Alike K (Column.Alike N)) as bs) :
    Forall₂ K (as.flatMap Assignment.constants) (bs.flatMap Assignment.constants) :=
  List.rel_flatMap h fun _ _ hab => hab.formula.constants

theorem forall₂_numberAssignments {as bs : List KnownAssignment}
    (h : Forall₂ (Assignment.Alike K (Column.Alike N)) as bs) (n : Nat) :
    Forall₂ (Assignment.Alike Eq N) (numberAssignments n as).2 (numberAssignments n bs).2 := by
  induction h generalizing n with
  | nil => exact .nil
  | @cons a b as bs hab hl ih =>
    have hc : a.constants.length = b.constants.length := hab.formula.constants.length_eq
    rw [numberAssignments_cons, numberAssignments_cons, hc]
    exact .cons ⟨hab.column.name, hab.formula.number n⟩ (ih _)

structure Upsert.Alike (T N : String → String → Prop) (u v : Upsert) : Prop where
  table : TableName.Alike T u.table v.table
  rowCount : u.rowCount = v.rowCount
  columns : Forall₂ N u.columns v.columns
  keys : Forall₂ N u.keys v.keys
  updates : Forall₂ (Assignment.Alike Eq N) u.updates v.updates

/-- Values of rows and literals of policies correspond; names of the table and of its columns do. -/
structure Request.Alike (T N : String → String → Prop) (K : Value → Value → Prop) {E E' : Type}
    (r : Request E) (q : Request E') : Prop where
  schema : r.schema.Alike T N q.schema
  rows : Forall₂ (fun a b => Forall₂ K (r.schema.rowOf a) (q.schema.rowOf b)) r.rows q.rows
  keys : r.keys = q.keys
  policy : r.policy.Alike K q.policy

namespace Request.Alike
variable {E E' : Type} {r : Request E} {q : Request E'} (h : r.Alike T N K q) (hN : BiUnique N)
include h

include hN in
theorem plan :
    Agree (Failure.Alike T N)
      (fun p p' => Forall₂ (Column.Alike N) p.keys p'.keys ∧
        Forall₂ (Assignment.Alike K (Column.Alike N)) p.assignments p'.assignments)
      r.plan q.plan := by
  unfold Request.plan
  rw [h.keys]
  refine (h.schema.resolveKeys hN q.keys).bind fun keys keys' hk => ?_
  refine (h.schema.analyze hN hk h.policy).bind fun as bs hl => ?_
  exact .ok ⟨hk, hl⟩

theorem parameters {as bs : List KnownAssignment}
    (hl : Forall₂ (Assignment.Alike K (Column.Alike N)) as bs) :
    Forall₂ K (r.schema.parameters r.rows as) (q.schema.parameters q.rows bs) :=
  List.rel_append (List.rel_flatMap h.rows fun _ _ hab => hab) (forall₂_constants hl)

theorem upsert {p p' : Plan} (hk : Forall₂ (Column.Alike N) p.keys p'.keys)
    {updates updates' : List BoundAssignment}
    (hu : Forall₂ (Assignment.Alike Eq N) updates updates') :
    (r.upsert p updates).Alike T N (q.upsert p' updates') where
  table := h.schema.table
  rowCount := h.rows.length_eq
  columns := List.rel_map (fun _ _ hcd => hcd.name) h.schema.insertColumns
  keys := List.rel_map (fun _ _ hcd => hcd.name) hk
  updates := hu

theorem bindings {as bs : List KnownAssignment}
    (hl : Forall₂ (Assignment.Alike K (Column.Alike N)) as bs) :
    Agree (Failure.Alike T N)
      (fun b c => Forall₂ (Assignment.Alike Eq N) b.updates c.updates ∧
        Forall₂ K b.parameters c.parameters)
      (r.schema.bind r.rows as) (q.schema.bind q.rows bs) := by
  have hn := h.rows.length_eq
  by_cases hq : q.rows = []
  · have hr : r.rows = [] := List.length_eq_zero_iff.1 (by rw [hn, hq, List.length_nil])
    rw [hr, hq]
    exact .error .emptyBatch
  · have hr : r.rows ≠ [] := by
      intro hr
      rw [hr, List.length_nil] at hn
      exact hq (List.length_eq_zero_iff.1 hn.symm)
    rw [(r.schema.bind_eq_ok).2 ⟨hr, rfl⟩, (q.schema.bind_eq_ok).2 ⟨hq, rfl⟩, hn,
      h.schema.insertColumns.length_eq]
    exact .ok ⟨forall₂_numberAssignments hl _, h.parameters hl⟩

include hN in
theorem bind :
    Agree (Failure.Alike T N) (fun a b => a.1.Alike T N b.1 ∧ Forall₂ K a.2 b.2) r.bind q.bind := by
  refine (h.plan hN).bind fun p p' hp => ?_
  refine (h.bindings hp.2).bind fun b c hb => ?_
  exact .ok ⟨h.upsert hp.1 hb.1, hb.2⟩

end Request.Alike
end UpsertSql
