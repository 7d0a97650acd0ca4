import UpsertSql.Proofs.Assignment.Literals
import UpsertSql.Proofs.Command
import UpsertSql.Proofs.Dialect.Reading

/-! The placeholders of a statement, read from left to right, are those of its parameters in their
order, none left out and, where they are numbered, none met twice. -/
namespace UpsertSql

namespace Piece

/-- The parameters, in the order in which they are written. -/
def indices (ps : List Piece) : List Nat := ps.filterMap index?

@[simp]
theorem indices_nil : indices [] = [] := rfl

@[simp]
theorem indices_word (w : String) (ps : List Piece) : indices (word w :: ps) = indices ps := rfl

@[simp]
theorem indices_name (s : String) (ps : List Piece) : indices (name s :: ps) = indices ps := rfl

@[simp]
theorem indices_parameter (i : Nat) (ps : List Piece) :
    indices (parameter i :: ps) = i :: indices ps := rfl

@[simp]
theorem indices_append (ps qs : List Piece) : indices (ps ++ qs) = indices ps ++ indices qs :=
  List.filterMap_append

theorem placeholders_reading (ps : List Piece) :
    (reading ps).filterMap Token.placeholder? = indices ps := by
  induction ps with
  | nil => rfl
  | cons p ps ih =>
    cases p with
    | word w => simp [ih, Token.placeholder?, List.filterMap_map, Function.comp_def]
    | name s => exact ih
    | parameter i => exact congrArg (i :: ·) ih

theorem indices_separated (sep : String) (l : List (List Piece)) :
    indices (separated sep l) = l.flatMap indices := by
  cases l with
  | nil => rfl
  | cons x l =>
    rw [separated_cons, indices_append, List.flatMap_cons]
    congr 1
    induction l with
    | nil => rfl
    | cons y l ih => simp [ih]

@[simp]
theorem indices_table (t : TableName) : indices (table t) = [] := by
  unfold table
  split <;> rfl

theorem indices_of_names {α : Type} {sep : String} {l : List α} {f : α → List Piece}
    (hf : ∀ a, indices (f a) = []) : indices (separated sep (l.map f)) = [] := by
  rw [indices_separated, List.flatMap_map]
  simp [hf]

@[simp]
theorem indices_columnList (columns : List String) : indices (columnList columns) = [] :=
  indices_of_names fun _ => rfl

theorem indices_valueRow (columnCount r : Nat) :
    indices (valueRow columnCount r) = List.range' (r * columnCount) columnCount := by
  simp only [valueRow, List.cons_append, indices_word, indices_append, indices_separated,
    List.flatMap_map, indices_parameter, indices_nil, List.append_nil, List.range'_eq_map_range]
  exact List.map_eq_flatMap.symm

/-- Row by row the parameters of the rows are counted through. -/
@[simp]
theorem indices_valueRows (rowCount columnCount : Nat) :
    indices (valueRows rowCount columnCount) = List.range (rowCount * columnCount) := by
  rw [valueRows, indices_separated, List.flatMap_map]
  induction rowCount with
  | zero => simp
  | succ n ih =>
    rw [List.range_succ, List.flatMap_append, ih, List.flatMap_singleton, indices_valueRow,
      List.range_eq_range', List.range_eq_range', Nat.succ_mul]
    have h := @List.range'_append_1 0 (n * columnCount) columnCount
    rwa [Nat.zero_add] at h

end Piece

namespace Spelling
open Piece
variable (sp : Spelling) (u : Upsert)

theorem indices_onConflict :
    indices (sp.onConflict u) = List.range (u.rowCount * u.columns.length) ++
      indices (sp.assignmentList u.updates) := by
  by_cases h : u.updates = []
  · simp [onConflict, h, targetAlias, assignmentList]
  · simp [onConflict, h, targetAlias]

theorem indices_onDuplicateKey :
    indices (sp.onDuplicateKey u) = List.range (u.rowCount * u.columns.length) ++
      indices (sp.assignmentList u.updates) := by
  by_cases h : u.updates = []
  · cases hk : u.keys.head? <;> simp [onDuplicateKey, h, hk, assignmentList]
  · simp [onDuplicateKey, h]

theorem indices_merge :
    indices (sp.merge u) = List.range (u.rowCount * u.columns.length) ++
      indices (sp.assignmentList u.updates) := by
  have hk : indices (separated " AND " (u.keys.map keyEquality)) = [] :=
    indices_of_names fun _ => rfl
  have hc : indices (separated ", " (u.columns.map sourceColumn)) = [] :=
    indices_of_names fun _ => rfl
  by_cases h : u.updates = []
  · simp [merge, h, targetAlias, sourceAlias, hk, hc, assignmentList]
  · simp [merge, h, targetAlias, sourceAlias, hk, hc]

end Spelling

namespace Engine
open Piece

theorem indices_operand (e : Engine) (a : Operand Nat String) :
    indices (e.renderer.operand a) = a.constants := by
  cases a with
  | constant i => rfl
  | column c side => cases e <;> cases side <;> rfl

theorem indices_formula (e : Engine) (f : Formula (Operand Nat String)) :
    indices (e.renderer.formula f) = f.constants := by
  cases f with
  | single a => rw [Spelling.formula, indices_operand, Formula.constants_single]
  | arith op a b => simp [Spelling.formula, indices_operand, Formula.constants_arith]

theorem indices_assignmentList (e : Engine) (as : List BoundAssignment) :
    indices (e.renderer.assignmentList as) = as.flatMap Assignment.constants := by
  rw [Spelling.assignmentList, indices_separated, List.flatMap_map]
  congr 1
  funext a
  exact e.indices_formula a.formula

/-- The parameters of the rows come first, those of the updates after them. -/
theorem indices_pieces (e : Engine) (u : Upsert) :
    indices (e.pieces u) =
      List.range (u.rowCount * u.columns.length) ++ u.updates.flatMap Assignment.constants := by
  rw [← e.indices_assignmentList]
  cases e with
  | postgres => exact Dialect.postgres.indices_onConflict u
  | sqlite => exact Dialect.sqlite.indices_onConflict u
  | mysql => exact Dialect.mysql.indices_onDuplicateKey u
  | sqlserver => exact Dialect.sqlserver.indices_merge u

/-- Numbers are told apart by their digits. -/
theorem placeholder_injective {e : Engine} (he : e ≠ mysql) :
    Function.Injective e.renderer.placeholder := by
  have value {m n : Nat} (h : Nat.toDigits 10 m = Nat.toDigits 10 n) : m = n := by
    rw [← Nat.ofDigitChars_ten_toDigits (n := m), h, Nat.ofDigitChars_ten_toDigits]
  intro i j h
  have hl := congrArg String.toList h
  simp only [toList_placeholder, List.cons.injEq, List.append_cancel_left_eq, true_and] at hl
  cases e with
  | postgres => exact Nat.succ.inj (value hl)
  | sqlite => exact Nat.succ.inj (value hl)
  | mysql => exact absurd rfl he
  | sqlserver => exact value hl

theorem placeholders_mysql (n : Nat) :
    (List.range n).map mysql.renderer.placeholder = List.replicate n "?" := by
  have h : mysql.renderer.placeholder = fun _ => "?" := rfl
  rw [h, List.map_const', List.length_range]

/-- The placeholders of a text, as they stand in it from left to right. -/
def placeholders (e : Engine) (text : String) : Option (List String) :=
  (e.read text).map (·.filterMap Token.placeholder?)

theorem placeholders_write (e : Engine) {ps : List Piece} (h : Legible ps) :
    e.placeholders (e.renderer.write ps) = some ((indices ps).map e.renderer.placeholder) := by
  rw [placeholders, e.read_write h, Option.map_some, Token.filterMap_placeholder?_map,
    placeholders_reading]

theorem placeholders_statement (e : Engine) (u : Upsert) :
    e.placeholders (e.renderer.statement u) =
      some ((indices (e.pieces u)).map e.renderer.placeholder) := by
  rw [statement_eq_write, e.placeholders_write (e.legible_pieces u)]

end Engine

/-- The constants of the updates are numbered from the end of the rows on. -/
def Upsert.Consecutive (u : Upsert) : Prop :=
  u.updates.flatMap Assignment.constants =
    List.range' (u.rowCount * u.columns.length) (u.updates.flatMap Assignment.constants).length

/-- Rows and updates together then use each number once. -/
theorem Engine.indices_of_consecutive (e : Engine) {u : Upsert} (hu : u.Consecutive) :
    Piece.indices (e.pieces u) = List.range
      (u.rowCount * u.columns.length + (u.updates.flatMap Assignment.constants).length) := by
  have h := @List.range'_append_1 0 (u.rowCount * u.columns.length)
    (u.updates.flatMap Assignment.constants).length
  rw [Nat.zero_add, ← hu] at h
  rw [e.indices_pieces, List.range_eq_range', List.range_eq_range', h]

namespace Request
variable {E : Type} {r : Request E} {u : Upsert} {parameters : List Value}

/-- The sizes of what a dialect is handed for a request. -/
theorem rowParameters_of_bind (h : r.bind = .ok (u, parameters)) :
    u.rowCount * u.columns.length = r.rowParameters := by
  obtain ⟨p, -, -, rfl, -⟩ := bind_eq_ok.1 h
  simp only [upsert, rowParameters, List.length_map]

theorem constants_of_bind (h : r.bind = .ok (u, parameters)) :
    u.updates.flatMap Assignment.constants =
      List.range' r.rowParameters r.policy.literals.length := by
  obtain ⟨p, hp, -, rfl, -⟩ := bind_eq_ok.1 h
  rw [← Schema.constants_eq_literals (plan_eq_ok.1 hp).2]
  exact numberAssignments_constants _ _

theorem consecutive_of_bind (h : r.bind = .ok (u, parameters)) : u.Consecutive := by
  rw [Upsert.Consecutive, rowParameters_of_bind h, constants_of_bind h, List.length_range']

theorem length_parameters (h : r.bind = .ok (u, parameters)) :
    parameters.length = r.rowParameters + r.policy.literals.length := by
  obtain ⟨p, hp, -, -, rfl⟩ := bind_eq_ok.1 h
  rw [r.schema.length_parameters, Schema.constants_eq_literals (plan_eq_ok.1 hp).2]
  rfl

end Request

/-- Every statement has a placeholder for each of its parameters, in their order. Where parameters
are numbered no placeholder is met twice; where they are not, each is a question mark. -/
theorem placeholders_of_compile (e : Engine) {E : Type} (r : Request E) {command : Command}
    (h : e.renderer.compile r = .ok command) :
    command.parameters.length =
        r.rows.length * r.schema.insertColumns.length + r.policy.literals.length ∧
      ∃ tokens, e.placeholders command.sql = some tokens ∧
        tokens = (List.range command.parameters.length).map e.renderer.placeholder ∧
        (e ≠ .mysql → tokens.Nodup) ∧
        (e = .mysql → tokens = List.replicate command.parameters.length "?") := by
  obtain ⟨u, hb, hs⟩ := Dialect.compile_eq_ok.1 h
  have hlen := Request.length_parameters hb
  refine ⟨hlen, _, ?_, rfl, fun he => ?_, fun he => ?_⟩
  · rw [hs, e.placeholders_statement, e.indices_of_consecutive (Request.consecutive_of_bind hb),
      Request.rowParameters_of_bind hb, Request.constants_of_bind hb, List.length_range', hlen]
  · exact List.nodup_range.map (Engine.placeholder_injective he)
  · subst he
    exact Engine.placeholders_mysql _

theorem placeholders_of_hits :
    Engine.postgres ≠ .mysql ∧
      (∃ command, Engine.postgres.renderer.compile .hits = .ok command ∧
        command.parameters.length = 2 * 2 + 1 ∧
        ∃ tokens, Engine.postgres.placeholders command.sql = some tokens ∧
          tokens = ["$1", "$2", "$3", "$4", "$5"] ∧ tokens.Nodup) ∧
      ∃ command, Engine.mysql.renderer.compile .hits = .ok command ∧
        Engine.mysql.placeholders command.sql = some ["?", "?", "?", "?", "?"] := by
  have he : Engine.postgres ≠ .mysql := by decide
  obtain ⟨hlen, tokens, hp, ht, hn, -⟩ := placeholders_of_compile .postgres .hits rfl
  refine ⟨he, ⟨_, rfl, hlen, tokens, hp, ht, hn he⟩, _, rfl, ?_⟩
  obtain ⟨-, tokens, hp, -, -, ht⟩ := placeholders_of_compile .mysql .hits rfl
  exact hp.trans (congrArg some (ht rfl))

end UpsertSql
