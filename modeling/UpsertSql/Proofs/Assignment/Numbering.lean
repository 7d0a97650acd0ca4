import UpsertSql.Assignment.Binding

/-! The numbers binding gives to constants: they follow one another without a gap, and reading the
parameter list at them gives the constants back. -/
namespace UpsertSql

/-- Lists standing one after the other from `n` on stand each at its own place. -/
theorem drop_append_split {α : Type} {l l' ps : List α} {n : Nat} (h : l ++ l' <+: ps.drop n) :
    l <+: ps.drop n ∧ l' <+: ps.drop (n + l.length) := by
  obtain ⟨t, ht⟩ := h
  rw [List.append_assoc] at ht
  refine ⟨⟨l' ++ t, ht⟩, t, ?_⟩
  rw [← List.drop_drop, ← ht, List.drop_left]

/-- Changes what stands for constants and what stands for columns. -/
def Operand.map {κ κ' γ γ' : Type} (f : κ → κ') (g : γ → γ') : Operand κ γ → Operand κ' γ'
  | constant k => constant (f k)
  | column c side => column (g c) side

def Assignment.map {κ κ' γ γ' : Type} (f : κ → κ') (g : γ → γ') (a : Assignment κ γ) :
    Assignment κ' γ' :=
  ⟨g a.column, a.formula.map (Operand.map f g)⟩

namespace Operand
variable {κ κ' γ γ' : Type}

/-- The operand's constant, as a list of at most one. -/
def constants (a : Operand κ γ) : List κ := a.constant?.toList

theorem constants_map (f : κ → κ') (g : γ → γ') (a : Operand κ γ) :
    (a.map f g).constants = a.constants.map f := by
  cases a <;> rfl

theorem number_next (n : Nat) (a : Operand Value Column) :
    (a.number n).1 = n + a.constants.length := by
  cases a <;> rfl

theorem number_constants (n : Nat) (a : Operand Value Column) :
    (a.number n).2.constants = List.range' n a.constants.length := by
  cases a <;> rfl

/-- A parameter list that holds the operand's constant at `n` gives it back. -/
theorem number_recall (n : Nat) (a : Operand Value Column) {ps : List Value}
    (h : a.constants <+: ps.drop n) :
    (a.number n).2.map (ps[·]?) id = a.map some Column.name := by
  cases a with
  | constant v =>
    obtain ⟨t, ht⟩ := h
    have hv : ps[n]? = some v := by
      rw [← List.head?_drop, ← ht]
      rfl
    simp [number, map, hv]
  | column c side => rfl

end Operand

namespace Formula
variable {κ κ' γ γ' : Type}

theorem constants_single (a : Operand κ γ) : (single a).constants = a.constants := by
  cases a <;> rfl

theorem constants_arith (op : Arith) (a b : Operand κ γ) :
    (arith op a b).constants = a.constants ++ b.constants := by
  cases a <;> cases b <;> rfl

theorem constants_map (f : κ → κ') (g : γ → γ') (e : Formula (Operand κ γ)) :
    (e.map (Operand.map f g)).constants = e.constants.map f := by
  cases e with
  | single a => simp only [map, constants_single, Operand.constants_map]
  | arith op a b => simp only [map, constants_arith, Operand.constants_map, List.map_append]

theorem number_next (n : Nat) (e : Formula (Operand Value Column)) :
    (e.mapAccum Operand.number n).1 = n + e.constants.length := by
  cases e with
  | single a => simp [mapAccum, constants_single, Operand.number_next]
  | arith op a b => simp [mapAccum, constants_arith, Operand.number_next, Nat.add_assoc]

theorem number_constants (n : Nat) (e : Formula (Operand Value Column)) :
    (e.mapAccum Operand.number n).2.constants = List.range' n e.constants.length := by
  cases e with
  | single a => simp [mapAccum, constants_single, Operand.number_constants]
  | arith op a b =>
    simp [mapAccum, constants_arith, Operand.number_constants, Operand.number_next]

theorem number_recall (n : Nat) (e : Formula (Operand Value Column)) {ps : List Value}
    (h : e.constants <+: ps.drop n) :
    (e.mapAccum Operand.number n).2.map (Operand.map (ps[·]?) id) =
      e.map (Operand.map some Column.name) := by
  cases e with
  | single a =>
    rw [constants_single] at h
    simp only [mapAccum, map, a.number_recall n h]
  | arith op a b =>
    rw [constants_arith] at h
    obtain ⟨ha, hb⟩ := drop_append_split h
    rw [← a.number_next] at hb
    simp only [mapAccum, map, a.number_recall n ha, b.number_recall _ hb]

end Formula

namespace Assignment

theorem constants_map {κ κ' γ γ' : Type} (f : κ → κ') (g : γ → γ') (a : Assignment κ γ) :
    (a.map f g).constants = a.constants.map f :=
  a.formula.constants_map f g

theorem number_next (n : Nat) (a : KnownAssignment) :
    (a.number n).1 = n + a.constants.length :=
  a.formula.number_next n

theorem number_constants (n : Nat) (a : KnownAssignment) :
    (a.number n).2.constants = List.range' n a.constants.length :=
  a.formula.number_constants n

theorem number_recall (n : Nat) (a : KnownAssignment) {ps : List Value}
    (h : a.constants <+: ps.drop n) :
    (a.number n).2.map (ps[·]?) id = a.map some Column.name := by
  simp only [number, map, id, a.formula.number_recall n h]

end Assignment

theorem numberAssignments_cons (n : Nat) (a : KnownAssignment) (as : List KnownAssignment) :
    numberAssignments n (a :: as) =
      ((numberAssignments (n + a.constants.length) as).1,
        (a.number n).2 :: (numberAssignments (n + a.constants.length) as).2) := by
  rw [← a.number_next]
  rfl

/-- The number after the last: each constant has moved it on by one. -/
theorem numberAssignments_next (n : Nat) (as : List KnownAssignment) :
    (numberAssignments n as).1 = n + (as.flatMap Assignment.constants).length := by
  induction as generalizing n with
  | nil => rfl
  | cons a as ih =>
    rw [numberAssignments_cons, ih, List.flatMap_cons, List.length_append, Nat.add_assoc]

theorem numberAssignments_columns (n : Nat) (as : List KnownAssignment) :
    (numberAssignments n as).2.map (·.column) = as.map (·.column.name) := by
  induction as generalizing n with
  | nil => rfl
  | cons a as ih =>
    rw [numberAssignments_cons, List.map_cons, ih]
    rfl

/-- The numbers of the constants, in the order in which the constants stand. -/
theorem numberAssignments_constants (n : Nat) (as : List KnownAssignment) :
    (numberAssignments n as).2.flatMap Assignment.constants =
      List.range' n (as.flatMap Assignment.constants).length := by
  induction as generalizing n with
  | nil => rfl
  | cons a as ih =>
    rw [numberAssignments_cons, List.flatMap_cons, ih, a.number_constants, List.flatMap_cons,
      List.length_append, List.range'_append_1]

/-- Looking up the numbers in a parameter list that holds the constants from `n` on gives the
assignments back, with columns known by their storage names. -/
theorem numberAssignments_recall (n : Nat) (as : List KnownAssignment) {ps : List Value}
    (h : as.flatMap Assignment.constants <+: ps.drop n) :
    (numberAssignments n as).2.map (Assignment.map (ps[·]?) id) =
      as.map (Assignment.map some Column.name) := by
  induction as generalizing n with
  | nil => rfl
  | cons a as ih =>
    rw [List.flatMap_cons] at h
    obtain ⟨ha, has⟩ := drop_append_split h
    rw [numberAssignments_cons, List.map_cons, a.number_recall n ha, ih _ has, List.map_cons]

end UpsertSql
