import UpsertSql.Proofs.Assignment.Numbering
import UpsertSql.Proofs.Schema.Building

/-! What binding makes of rows and assignments. Every batch with a row in it can be bound. -/
namespace UpsertSql.Schema
variable {E : Type} (s : Schema E)

theorem length_rowOf (e : E) : (s.rowOf e).length = s.insertColumns.length := by
  rw [rowOf, List.length_map, length_readers]

theorem length_flatMap_rowOf (rows : List E) :
    (rows.flatMap s.rowOf).length = rows.length * s.insertColumns.length := by
  simp only [List.length_flatMap, length_rowOf, List.map_const', List.sum_replicate_nat]

theorem length_parameters (rows : List E) (as : List KnownAssignment) :
    (s.parameters rows as).length =
      rows.length * s.insertColumns.length + (as.flatMap Assignment.constants).length := by
  rw [parameters, List.length_append, length_flatMap_rowOf]

/-- The constants are numbered from the end of the rows on. -/
theorem bind_eq_ok {rows : List E} {as : List KnownAssignment} {b : Bindings} :
    s.bind rows as = .ok b ↔ rows ≠ [] ∧ b = ⟨s.parameters rows as,
      (numberAssignments (rows.length * s.insertColumns.length) as).2⟩ := by
  unfold bind
  cases rows with
  | nil => simp
  | cons e rows => simp [length_parameters, eq_comm]

theorem take_parameters (rows : List E) (as : List KnownAssignment) :
    (s.parameters rows as).take (rows.length * s.insertColumns.length) =
      rows.flatMap s.rowOf := by
  rw [parameters, ← length_flatMap_rowOf, List.take_left]

theorem drop_parameters (rows : List E) (as : List KnownAssignment) :
    (s.parameters rows as).drop (rows.length * s.insertColumns.length) =
      as.flatMap Assignment.constants := by
  rw [parameters, ← length_flatMap_rowOf, List.drop_left]

theorem constants_standing (rows : List E) (as : List KnownAssignment) :
    as.flatMap Assignment.constants <+:
      (s.parameters rows as).drop (rows.length * s.insertColumns.length) := by
  refine ⟨[], ?_⟩
  rw [drop_parameters, List.append_nil]

/-- Each row takes as many parameters as there are stored columns. -/
theorem parameters_getElem? {rows : List E} (as : List KnownAssignment) {i j : Nat} {e : E}
    (hi : rows[i]? = some e) (hj : j < s.insertColumns.length) :
    (s.parameters rows as)[i * s.insertColumns.length + j]? = (s.rowOf e)[j]? := by
  induction rows generalizing i with
  | nil => simp at hi
  | cons d rows ih =>
    have hlen := s.length_rowOf d
    have hcons : s.parameters (d :: rows) as = s.rowOf d ++ s.parameters rows as := by
      simp [parameters]
    rw [hcons]
    cases i with
    | zero =>
      obtain rfl : d = e := by simpa using hi
      rw [Nat.zero_mul, Nat.zero_add, List.getElem?_append_left (by omega)]
    | succ i =>
      have hpast : (i + 1) * s.insertColumns.length + j =
          (s.rowOf d).length + (i * s.insertColumns.length + j) := by
        rw [hlen, Nat.succ_mul]
        omega
      rw [hpast, List.getElem?_append_right (Nat.le_add_right _ _), Nat.add_sub_cancel_left]
      exact ih hi

/-- The values of the stored columns, row after row and in each row in order of declaration. -/
def storedValues (rows : List E) : List Value :=
  rows.flatMap fun e => s.fields.filterMap fun f => f.origin.read?.map (· e)

theorem parameters_eq (rows : List E) (as : List KnownAssignment) :
    s.parameters rows as = s.storedValues rows ++ as.flatMap Assignment.constants := by
  have hrow : s.rowOf = fun e => s.fields.filterMap fun f => f.origin.read?.map (· e) := by
    funext e
    rw [rowOf, readers, List.map_filterMap]
  rw [parameters, storedValues, hrow]

/-- The list of parameters and the numbers in the updates fit each other. -/
structure InStep (rows : List E) (as : List KnownAssignment) (b : Bindings) : Prop where
  parameters : b.parameters = s.storedValues rows ++ as.flatMap Assignment.constants
  /-- The first number is found by counting back from the end of the list. -/
  first : rows.length * s.insertColumns.length + (as.flatMap Assignment.constants).length =
    b.parameters.length
  /-- The last number is followed by the length of the list. -/
  counter : numberAssignments (b.parameters.length - (as.flatMap Assignment.constants).length) as =
    (b.parameters.length, b.updates)
  numbers : b.updates.flatMap Assignment.constants =
    (List.range b.parameters.length).drop (rows.length * s.insertColumns.length)
  recalled : b.updates.map (Assignment.map (b.parameters[·]?) id) =
    as.map (Assignment.map some Column.name)

/-- Collecting the parameters and numbering the constants go over the assignments separately and
agree about them, whether or not analysis would have let them pass. -/
theorem bind_in_step {rows : List E} (h : rows ≠ []) (as : List KnownAssignment) :
    ∃ b, s.bind rows as = .ok b ∧ s.InStep rows as b := by
  refine ⟨_, s.bind_eq_ok.2 ⟨h, rfl⟩, ?_⟩
  have hlen := s.length_parameters rows as
  have hback : (s.parameters rows as).length - (as.flatMap Assignment.constants).length =
      rows.length * s.insertColumns.length := by omega
  constructor
  case parameters => exact s.parameters_eq rows as
  case first => exact hlen.symm
  case counter =>
    show numberAssignments ((s.parameters rows as).length - _) as = _
    rw [hback, hlen, ← numberAssignments_next]
  case numbers =>
    show _ = (List.range (s.parameters rows as).length).drop _
    rw [numberAssignments_constants, hlen, List.range_eq_range', List.drop_range',
      Nat.mul_one, Nat.zero_add, Nat.add_sub_cancel_left]
  case recalled => exact numberAssignments_recall _ _ (s.constants_standing rows as)

/-- Numbers under identities that the database makes up. -/
def numbers : Schema Int64 := ((ofTable "numbers").generated "id").stored "n" .int

/-- The generated column is read from the incoming row and assigned, twice at that. -/
def assignmentsOfId : List KnownAssignment :=
  [⟨⟨"id", "id", true⟩, .arith .add (.constant (.int 7)) (.column ⟨"id", "id", true⟩ .source)⟩,
    ⟨⟨"id", "id", true⟩, .arith .sub (.constant (.int 8)) (.constant (.int 7))⟩]

theorem bind_in_step_of_id :
    [5, 6] ≠ ([] : List Int64) ∧ ∃ b, numbers.bind [5, 6] assignmentsOfId = .ok b ∧
      numbers.InStep [5, 6] assignmentsOfId b ∧
      b.updates.flatMap Assignment.constants = [2, 3, 4] := by
  have h : [5, 6] ≠ ([] : List Int64) := List.cons_ne_nil _ _
  obtain ⟨b, hb, hs⟩ := numbers.bind_in_step h assignmentsOfId
  refine ⟨h, b, hb, hs, ?_⟩
  cases hb
  rfl

end UpsertSql.Schema
