import Mathlib.Data.List.Forall2
import UpsertSql.Schema.Lookup

/-! Schemas that hold the same properties in the same order and differ in the names these are kept
under, and computations on them that cannot tell the two apart. Names are compared with each other
and nothing else is asked of them, so corresponding names will do wherever they correspond one to
one. -/
namespace UpsertSql
open List (Forall₂)
open Relator (BiUnique)

/-- Both computations fail or both succeed, with failures or results that correspond. -/
inductive Agree {ε α β : Type} (F : ε → ε → Prop) (R : α → β → Prop) :
    Except ε α → Except ε β → Prop
  | error {e e' : ε} (h : F e e') : Agree F R (.error e) (.error e')
  | ok {a : α} {b : β} (h : R a b) : Agree F R (.ok a) (.ok b)

namespace Agree
variable {ε α β γ δ : Type} {F G : ε → ε → Prop} {R : α → β → Prop} {S : γ → δ → Prop}

theorem bind {x : Except ε α} {y : Except ε β} {f : α → Except ε γ} {g : β → Except ε δ}
    (h : Agree F R x y) (hf : ∀ a b, R a b → Agree F S (f a) (g b)) :
    Agree F S (x >>= f) (y >>= g) := by
  cases h with
  | error he => exact .error he
  | ok hab => exact hf _ _ hab

theorem imp {x : Except ε α} {y : Except ε β} {S : α → β → Prop} (h : Agree F R x y)
    (hF : ∀ e e', F e e' → G e e') (hR : ∀ a b, R a b → S a b) : Agree G S x y := by
  cases h with
  | error he => exact .error (hF _ _ he)
  | ok hab => exact .ok (hR _ _ hab)

theorem mapM {κ : Type} {f : κ → Except ε α} {g : κ → Except ε β}
    (h : ∀ k, Agree F R (f k) (g k)) (l : List κ) :
    Agree F (Forall₂ R) (l.mapM f) (l.mapM g) := by
  induction l with
  | nil => exact .ok .nil
  | cons k l ih =>
    rw [List.mapM_cons, List.mapM_cons]
    refine (h k).bind fun a b hab => ih.bind fun as bs hl => ?_
    exact .ok (.cons hab hl)

end Agree

section Lists
variable {α β : Type} {R : α → β → Prop}

theorem forall₂_find? {p : α → Bool} {q : β → Bool} (hpq : ∀ a b, R a b → p a = q b) {l : List α}
    {l' : List β} (h : Forall₂ R l l') : Option.Rel R (l.find? p) (l'.find? q) := by
  induction h with
  | nil => exact .none
  | @cons a b l l' hab hl ih =>
    rw [List.find?_cons, List.find?_cons, hpq a b hab]
    cases q b with
    | true => exact .some hab
    | false => exact ih

/-- What is filtered out at the first mention is the same on both sides, so the two lists shrink
together. -/
theorem forall₂_eraseDups [DecidableEq α] [DecidableEq β] (hR : BiUnique R) {l : List α}
    {l' : List β} (h : Forall₂ R l l') : Forall₂ R l.eraseDups l'.eraseDups := by
  induction hn : l.length using Nat.strongRecOn generalizing l l' with
  | ind n ih =>
    cases h with
    | nil => exact .nil
    | @cons a b l l' hab hl =>
      rw [List.eraseDups_cons, List.eraseDups_cons]
      have hf : Forall₂ R (l.filter fun x => !x == a) (l'.filter fun y => !y == b) := by
        refine List.rel_filter ?_ hl
        intro x y hxy
        have he : x = a ↔ y = b := Relator.rel_eq hR hxy hab
        simp [he]
      have hlt : (l.filter fun x => !x == a).length < n := by
        have := List.length_filter_le (fun x => !x == a) l
        simp only [← hn, List.length_cons]
        omega
      exact .cons hab (ih _ hlt hf rfl)

end Lists

/-- Names of a table and its namespace that correspond. -/
structure TableName.Alike (T : String → String → Prop) (t u : TableName) : Prop where
  name : T t.name u.name
  qualifier : Option.Rel T t.qualifier u.qualifier

/-- The same property, kept under names that correspond. -/
structure Column.Alike (N : String → String → Prop) (c d : Column) : Prop where
  property : c.property = d.property
  name : N c.name d.name
  generated : c.generated = d.generated

structure Schema.Alike (T N : String → String → Prop) {E E' : Type} (s : Schema E)
    (t : Schema E') : Prop where
  table : TableName.Alike T s.table t.table
  columns : Forall₂ (Column.Alike N) s.columns t.columns

/-- The same failure, told of names that correspond. -/
inductive Failure.Alike (T N : String → String → Prop) : Failure → Failure → Prop
  | nothingAssigned :
    Alike T N (.malformedUpdate .nothingAssigned) (.malformedUpdate .nothingAssigned)
  | assignsGenerated {c d : String} (h : N c d) :
    Alike T N (.malformedUpdate (.assignsGenerated c)) (.malformedUpdate (.assignsGenerated d))
  | assignsTwice {c d : String} (h : N c d) :
    Alike T N (.malformedUpdate (.assignsTwice c)) (.malformedUpdate (.assignsTwice d))
  | readsGenerated (property : String) {c d : String} (h : N c d) :
    Alike T N (.malformedUpdate (.readsGenerated property c))
      (.malformedUpdate (.readsGenerated property d))
  | unknownColumn {e f : String} (property : String) (h : T e f) :
    Alike T N (.unknownColumn e property) (.unknownColumn f property)
  | unsupportedOperation (fault : OperationFault) :
    Alike T N (.unsupportedOperation fault) (.unsupportedOperation fault)
  | noKey {e f : String} (h : T e f) :
    Alike T N (.invalidKey (.noColumns e)) (.invalidKey (.noColumns f))
  | generatedKey {e f c d : String} (he : T e f) (hc : N c d) :
    Alike T N (.invalidKey (.generated e c)) (.invalidKey (.generated f d))
  | emptyBatch : Alike T N .emptyBatch .emptyBatch

variable {T N : String → String → Prop}

theorem Column.Alike.biUnique (hN : BiUnique N) : BiUnique (Column.Alike N) := by
  constructor
  · intro c d e hc hd
    cases c
    cases d
    simp only [mk.injEq]
    exact ⟨hc.property.trans hd.property.symm, hN.1 hc.name hd.name,
      hc.generated.trans hd.generated.symm⟩
  · intro c d e hd he
    cases d
    cases e
    simp only [mk.injEq]
    exact ⟨hd.property.symm.trans he.property, hN.2 hd.name he.name,
      hd.generated.symm.trans he.generated⟩

namespace Schema.Alike
variable {E E' : Type} {s : Schema E} {t : Schema E'} (h : s.Alike T N t)
include h

theorem insertColumns : Forall₂ (Column.Alike N) s.insertColumns t.insertColumns := by
  refine List.rel_filter ?_ h.columns
  intro c d hcd
  simp [hcd.generated]

theorem find? (p : String) : Option.Rel (Column.Alike N) (s.find? p) (t.find? p) :=
  forall₂_find? (fun c d hcd => by rw [hcd.property]) h.columns

theorem resolve (p : String) :
    Agree (Failure.Alike T N) (Column.Alike N) (s.resolve p) (t.resolve p) := by
  have hf := h.find? p
  unfold Schema.resolve
  generalize s.find? p = c, t.find? p = d at hf ⊢
  cases hf with
  | some hcd => exact .ok hcd
  | none => exact .error (.unknownColumn p h.table.name)

theorem resolveKey (p : String) :
    Agree (Failure.Alike T N) (Column.Alike N) (s.resolveKey p) (t.resolveKey p) := by
  refine (h.resolve p).bind fun c d hcd => ?_
  rw [hcd.generated]
  by_cases hd : d.generated
  · rw [if_pos hd, if_pos hd]
    exact .error (.generatedKey h.table.name hcd.name)
  · rw [if_neg hd, if_neg hd]
    exact .ok hcd

theorem resolveKeys (hN : BiUnique N) (ps : List String) :
    Agree (Failure.Alike T N) (Forall₂ (Column.Alike N)) (s.resolveKeys ps) (t.resolveKeys ps) := by
  unfold Schema.resolveKeys
  by_cases hp : ps.isEmpty
  · rw [if_pos hp, if_pos hp]
    exact .error (.noKey h.table.name)
  · rw [if_neg hp, if_neg hp]
    refine (Agree.mapM h.resolveKey ps).bind fun cs ds hl => ?_
    exact .ok (forall₂_eraseDups (Column.Alike.biUnique hN) hl)

end Schema.Alike
end UpsertSql
