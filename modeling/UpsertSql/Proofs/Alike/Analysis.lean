import UpsertSql.Assignment.Analysis
import UpsertSql.Proofs.Alike.Schema

/-! Policies that differ in their literals alone, analysed over schemas that are alike. Analysis
never looks into a literal, not even to name what it refuses, so both are accepted with the same
assignments or refused for the same reason. -/
namespace UpsertSql
open List (Forall₂)
open Relator (BiUnique)

inductive Operand.Alike {κ κ' γ γ' : Type} (K : κ → κ' → Prop) (C : γ → γ' → Prop) :
    Operand κ γ → Operand κ' γ' → Prop
  | constant {k : κ} {k' : κ'} (h : K k k') : Alike K C (.constant k) (.constant k')
  | column {c : γ} {c' : γ'} (side : Side) (h : C c c') : Alike K C (.column c side) (.column c' side)

inductive Formula.Alike {α β : Type} (R : α → β → Prop) : Formula α → Formula β → Prop
  | single {a : α} {b : β} (h : R a b) : Alike R (.single a) (.single b)
  | arith (op : Arith) {l r : α} {l' r' : β} (left : R l l') (right : R r r') :
    Alike R (.arith op l r) (.arith op l' r')

structure Assignment.Alike {κ κ' γ γ' : Type} (K : κ → κ' → Prop) (C : γ → γ' → Prop)
    (a : Assignment κ γ) (b : Assignment κ' γ') : Prop where
  column : C a.column b.column
  formula : Formula.Alike (Operand.Alike K C) a.formula b.formula

/-- The same expression but for its literals, which correspond at whatever depth. -/
inductive Expr.Alike (K : Value → Value → Prop) : Expr → Expr → Prop
  | value {v w : Value} (h : K v w) : Alike K (.value v) (.value w)
  | property (side : Side) (name : String) : Alike K (.property side name) (.property side name)
  | binary (op : BinaryOp) {l r l' r' : Expr} (left : Alike K l l') (right : Alike K r r') :
    Alike K (.binary op l r) (.binary op l' r')
  | call (function : String) {as bs : List Expr} (args : Forall₂ (Alike K) as bs) :
    Alike K (.call function as) (.call function bs)

/-- The same policy but for the literals in its expressions. -/
inductive Policy.Alike (K : Value → Value → Prop) : Policy → Policy → Prop
  | updateAll : Alike K .updateAll .updateAll
  | update {l l' : List (String × Expr)}
    (h : Forall₂ (fun a b => a.1 = b.1 ∧ Expr.Alike K a.2 b.2) l l') :
    Alike K (.update ⟨l⟩) (.update ⟨l'⟩)
  | doNothing : Alike K .doNothing .doNothing

variable {K : Value → Value → Prop} {T N : String → String → Prop}

mutual
theorem Expr.Alike.refl (hK : ∀ v, K v v) : ∀ e : Expr, Expr.Alike K e e
  | .value v => .value (hK v)
  | .property side p => .property side p
  | .binary op l r => .binary op (Expr.Alike.refl hK l) (Expr.Alike.refl hK r)
  | .call f as => .call f (Expr.Alike.reflArgs hK as)
theorem Expr.Alike.reflArgs (hK : ∀ v, K v v) : ∀ as : List Expr, Forall₂ (Expr.Alike K) as as
  | [] => .nil
  | a :: as => .cons (Expr.Alike.refl hK a) (Expr.Alike.reflArgs hK as)
end

theorem Policy.Alike.refl (hK : ∀ v, K v v) (p : Policy) : Policy.Alike K p p := by
  cases p with
  | updateAll => exact .updateAll
  | update spec => exact .update (List.forall₂_same.2 fun a _ => ⟨rfl, .refl hK a.2⟩)
  | doNothing => exact .doNothing

namespace Schema.Alike
variable {E E' : Type} {s : Schema E} {t : Schema E'} (h : s.Alike T N t)
include h

theorem readProperty (side : Side) (p : String) :
    Agree (Failure.Alike T N) (Operand.Alike K (Column.Alike N)) (s.readProperty side p)
      (t.readProperty side p) := by
  refine (h.resolve p).bind fun c d hcd => ?_
  rw [hcd.generated]
  by_cases hd : side = .source ∧ d.generated
  · rw [if_pos hd, if_pos hd]
    exact .error (.readsGenerated p hcd.name)
  · rw [if_neg hd, if_neg hd]
    exact .ok (.column side hcd)

theorem operand {e e' : Expr} (he : e.Alike K e') :
    Agree (Failure.Alike T N) (Operand.Alike K (Column.Alike N)) (s.operand e) (t.operand e') := by
  cases he with
  | value hv => exact .ok (.constant hv)
  | property side p => exact h.readProperty side p
  | binary op _ _ => exact .error (.unsupportedOperation _)
  | call f _ => exact .error (.unsupportedOperation _)

theorem formula {e e' : Expr} (he : e.Alike K e') :
    Agree (Failure.Alike T N) (Formula.Alike (Operand.Alike K (Column.Alike N))) (s.formula e)
      (t.formula e') := by
  cases he with
  | value hv => exact .ok (.single (.constant hv))
  | property side p => exact (h.readProperty side p).bind fun a b hab => .ok (.single hab)
  | binary op hl hr =>
    cases op with
    | arith op =>
      refine (h.operand hl).bind fun a b hab => (h.operand hr).bind fun c d hcd => ?_
      exact .ok (.arith op hab hcd)
    | _ => exact .error (.unsupportedOperation _)
  | call f _ => exact .error (.unsupportedOperation _)

theorem resolveAssigned (hN : BiUnique N) {taken taken' : List Column}
    (ht : Forall₂ (Column.Alike N) taken taken') (p : String) :
    Agree (Failure.Alike T N) (Column.Alike N) (s.resolveAssigned taken p)
      (t.resolveAssigned taken' p) := by
  refine (h.resolve p).bind fun c d hcd => ?_
  have hm : c ∈ taken ↔ d ∈ taken' := List.rel_mem (Column.Alike.biUnique hN) hcd ht
  rw [hcd.generated]
  by_cases hd : d.generated
  · rw [if_pos hd, if_pos hd]
    exact .error (.assignsGenerated hcd.name)
  · rw [if_neg hd, if_neg hd]
    by_cases ht : d ∈ taken'
    · rw [if_pos (hm.2 ht), if_pos ht]
      exact .error (.assignsTwice hcd.name)
    · rw [if_neg (mt hm.1 ht), if_neg ht]
      exact .ok hcd

/-- The columns taken so far correspond as well, so the same assignment is refused as a repetition
in both. -/
theorem explicitAssignments (hN : BiUnique N) {l l' : List (String × Expr)}
    (hl : Forall₂ (fun a b => a.1 = b.1 ∧ Expr.Alike K a.2 b.2) l l') {taken taken' : List Column}
    (ht : Forall₂ (Column.Alike N) taken taken') :
    Agree (Failure.Alike T N) (Forall₂ (Assignment.Alike K (Column.Alike N)))
      (s.explicitAssignments taken l) (t.explicitAssignments taken' l') := by
  induction hl generalizing taken taken' with
  | nil => exact .ok .nil
  | @cons a b l l' hab hl ih =>
    obtain ⟨p, e⟩ := a
    obtain ⟨q, e'⟩ := b
    obtain ⟨rfl, he⟩ := hab
    refine (h.resolveAssigned hN ht p).bind fun c d hcd => ?_
    refine (h.formula he).bind fun f g hfg => ?_
    refine (ih (.cons hcd ht)).bind fun as bs habs => ?_
    exact .ok (.cons ⟨hcd, hfg⟩ habs)

theorem defaultAssignments (hN : BiUnique N) {keys keys' : List Column}
    (hk : Forall₂ (Column.Alike N) keys keys') :
    Forall₂ (Assignment.Alike K (Column.Alike N)) (s.defaultAssignments keys)
      (t.defaultAssignments keys') := by
  have hf : Forall₂ (Column.Alike N) (s.insertColumns.filter (· ∉ keys))
      (t.insertColumns.filter (· ∉ keys')) := by
    refine List.rel_filter ?_ h.insertColumns
    intro c d hcd
    have hm : c ∈ keys ↔ d ∈ keys' := List.rel_mem (Column.Alike.biUnique hN) hcd hk
    simp [hm]
  refine List.rel_map ?_ hf
  intro c d hcd
  exact ⟨hcd, .single (.column .source hcd)⟩

theorem analyze (hN : BiUnique N) {keys keys' : List Column}
    (hk : Forall₂ (Column.Alike N) keys keys') {p p' : Policy} (hp : p.Alike K p') :
    Agree (Failure.Alike T N) (Forall₂ (Assignment.Alike K (Column.Alike N))) (s.analyze keys p)
      (t.analyze keys' p') := by
  cases hp with
  | updateAll => exact .ok (h.defaultAssignments hN hk)
  | @update l l' hl =>
    cases hl with
    | nil => exact .error .nothingAssigned
    | cons hab hl => exact h.explicitAssignments hN (.cons hab hl) .nil
  | doNothing => exact .ok .nil

end Schema.Alike
end UpsertSql
