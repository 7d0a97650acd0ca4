import UpsertSql.Proofs.Dialect.Reading
import UpsertSql.Proofs.Text.Decodable

/-! Each part of a statement is determined by its reading, and so is the statement. -/
namespace UpsertSql
open Piece

attribute [ext] Upsert

namespace Piece

/-- The text does not begin with the character. -/
def Avoids (c : Char) (r : List (Token Nat)) : Prop := r.head? ≠ some (.char c)

/-- The text does not begin with a name. -/
def Unnamed (r : List (Token Nat)) : Prop := ∀ s, r.head? ≠ some (.name s)

@[simp]
theorem avoids_nil (c : Char) : Avoids c [] := by simp [Avoids]

@[simp]
theorem avoids_char (c d : Char) (r : List (Token Nat)) : Avoids c (.char d :: r) ↔ d ≠ c := by
  simp [Avoids]

@[simp]
theorem unnamed_nil : Unnamed [] := by simp [Unnamed]

@[simp]
theorem unnamed_char (c : Char) (r : List (Token Nat)) : Unnamed (.char c :: r) := by
  simp [Unnamed]

theorem Avoids.comma {r : List (Token Nat)} (h : Avoids ',' r) :
    ¬ (", ".toList.map .char) <+: r := by
  intro hp
  obtain ⟨t, rfl⟩ := hp
  exact h rfl

theorem reading_separated {α : Type} (sep : String) (f : α → List Piece) (l : List α) :
    reading (separated sep (l.map f)) =
      joined (sep.toList.map .char) (fun a => reading (f a)) l := by
  cases l with
  | nil => rfl
  | cons a l =>
    rw [List.map_cons, separated_cons, reading_append, joined]
    congr 1
    induction l with
    | nil => rfl
    | cons b l ih => simp [ih, preceded]

theorem decodes_table : Decodes (fun t => reading (table t)) (Avoids '.') := by
  intro t t' r s hr hs h
  obtain ⟨n, q⟩ := t
  obtain ⟨n', q'⟩ := t'
  cases q with
  | none =>
    cases q' with
    | none =>
      obtain ⟨rfl, rfl⟩ : n = n' ∧ r = s := by simpa [table] using h
      exact ⟨rfl, rfl⟩
    | some q' =>
      obtain ⟨-, rfl⟩ : n = q' ∧ r = .char '.' :: .name n' :: s := by simpa [table] using h
      exact absurd rfl hr
  | some q =>
    cases q' with
    | none =>
      obtain ⟨-, rfl⟩ : q = n' ∧ .char '.' :: .name n :: r = s := by simpa [table] using h
      exact absurd rfl hs
    | some q' =>
      obtain ⟨rfl, rfl, rfl⟩ : q = q' ∧ n = n' ∧ r = s := by simpa [table] using h
      exact ⟨rfl, rfl⟩

theorem decodes_name : Decodes (fun s => reading [name s]) (fun _ => True) := by
  intro a b r s _ _ h
  simpa using h

theorem decodes_parameter : Decodes (fun i => reading [parameter i]) (fun _ => True) := by
  intro a b r s _ _ h
  simpa using h

theorem decodes_columnList :
    Decodes (fun cs => reading (columnList cs)) (fun r => Avoids ',' r ∧ Unnamed r) := by
  simp only [columnList, reading_separated]
  refine decodes_name.list (fun _ => trivial) (fun r hr => ⟨trivial, hr.1.comma⟩) ?_
  intro a r s hs h
  exact hs.2 a (h ▸ rfl)

/-- A row of values, by the numbers of its parameters. -/
def row (indices : List Nat) : List Piece :=
  word "(" :: separated ", " (indices.map fun i => [parameter i]) ++ [word ")"]

/-- The numbers of the parameters, row by row. -/
def rowIndices (rowCount columnCount : Nat) : List (List Nat) :=
  (List.range rowCount).map fun r => (List.range columnCount).map (r * columnCount + ·)

theorem valueRows_eq (rowCount columnCount : Nat) :
    valueRows rowCount columnCount =
      separated ", " ((rowIndices rowCount columnCount).map row) := by
  simp only [valueRows, rowIndices, List.map_map]
  congr 2
  funext r
  simp [valueRow, row, Function.comp_def]

theorem decodes_row : Decodes (fun l => reading (row l)) (fun _ => True) := by
  have hp : Decodes (fun l : List Nat => reading (separated ", " (l.map fun i => [parameter i])))
      (fun r => r.head? = some (.char ')')) := by
    simp only [reading_separated]
    refine decodes_parameter.list (fun _ => trivial) (fun r hr => ⟨trivial, ?_⟩) ?_
    · exact Avoids.comma fun h => by simp [hr] at h
    · intro a r s hs h
      rw [← h] at hs
      simp at hs
  intro a b r s _ _ h
  simp only [row, List.cons_append, List.append_assoc, reading_word, reading_append,
    List.append_cancel_left_eq] at h
  obtain ⟨hab, h⟩ := hp rfl rfl h
  exact ⟨hab, by simpa using h⟩

theorem decodes_valueRows {n k n' k' : Nat} {r s : List (Token Nat)}
    (hr : Avoids '(' r ∧ Avoids ',' r) (hs : Avoids '(' s ∧ Avoids ',' s)
    (h : reading (valueRows n k) ++ r = reading (valueRows n' k') ++ s) : n = n' ∧ r = s := by
  have hd : Decodes (fun l : List (List Nat) => reading (separated ", " (l.map row)))
      (fun r => Avoids '(' r ∧ Avoids ',' r) := by
    simp only [reading_separated]
    refine decodes_row.list (fun _ => trivial) (fun r hr => ⟨trivial, hr.2.comma⟩) ?_
    intro a r s hs h
    exact hs.1 (h ▸ rfl)
  rw [valueRows_eq, valueRows_eq] at h
  obtain ⟨hl, hrs⟩ := hd hr hs h
  have hn := congrArg List.length hl
  simp only [rowIndices, List.length_map, List.length_range] at hn
  exact ⟨hn, hrs⟩

end Piece

namespace Arith

def char : Arith → Char
  | add => '+'
  | sub => '-'
  | mul => '*'
  | div => '/'

theorem char_injective : Function.Injective char := by
  intro a b h
  cases a <;> cases b <;> first | rfl | cases h

theorem toList_symbol (op : Arith) : (s!" {op.symbol} ").toList = [' ', op.char, ' '] := by
  cases op <;> rfl

end Arith

namespace Spelling
variable {sp : Spelling}

theorem reading_arith (op : Arith) (a b : Operand Nat String) :
    reading (sp.formula (.arith op a b)) =
      reading (sp.operand a) ++
        .char ' ' :: .char op.char :: .char ' ' :: reading (sp.operand b) := by
  simp only [formula, reading_append, reading_word, Arith.toList_symbol]
  rfl

variable (hd : Decodes (fun a => reading (sp.operand a)) (fun _ => True))
include hd

/-- Only the blank before an operator tells an operand from the beginning of an operation. -/
theorem decodes_formula : Decodes (fun e => reading (sp.formula e)) (Avoids ' ') := by
  intro e e' r s hr hs h
  cases e with
  | single a =>
    cases e' with
    | single a' =>
      obtain ⟨rfl, hrs⟩ := hd trivial trivial h
      exact ⟨rfl, hrs⟩
    | arith op' a' b' =>
      simp only [reading_arith, List.append_assoc] at h
      obtain ⟨-, rfl⟩ := hd trivial trivial h
      exact absurd rfl hr
  | arith op a b =>
    cases e' with
    | single a' =>
      simp only [reading_arith, List.append_assoc] at h
      obtain ⟨-, rfl⟩ := hd trivial trivial h
      exact absurd rfl hs
    | arith op' a' b' =>
      simp only [reading_arith, List.append_assoc] at h
      obtain ⟨rfl, ht⟩ := hd trivial trivial h
      simp only [List.cons_append, List.cons.injEq, Token.char.injEq, true_and] at ht
      obtain ⟨hop, hb⟩ := ht
      obtain ⟨rfl, hrs⟩ := hd trivial trivial hb
      obtain rfl := Arith.char_injective hop
      exact ⟨rfl, hrs⟩

theorem decodes_assignment : Decodes (fun a => reading (sp.assignment a)) (Avoids ' ') := by
  intro a b r s hr hs h
  obtain ⟨c, e⟩ := a
  obtain ⟨c', e'⟩ := b
  simp only [assignment, reading_name, reading_word, List.cons_append, List.cons.injEq,
    Token.name.injEq, List.append_assoc, List.append_cancel_left_eq] at h
  obtain ⟨rfl, he⟩ := h
  obtain ⟨rfl, hrs⟩ := decodes_formula hd hr hs he
  exact ⟨rfl, hrs⟩

theorem decodes_assignmentList :
    Decodes (fun as => reading (sp.assignmentList as))
      (fun r => Avoids ' ' r ∧ Avoids ',' r ∧ Unnamed r) := by
  simp only [assignmentList, reading_separated]
  refine (decodes_assignment hd).list (fun _ => ?_) (fun r hr => ⟨hr.1, hr.2.1.comma⟩) ?_
  · simp [Avoids]
  · intro a r s hs h
    exact hs.2.2 a.column (h ▸ rfl)

/-- The end of a statement: updates where there are any, otherwise what stands for none. -/
theorem decodes_ending {w : String} {none : List Piece} {t : List (Token Nat)}
    (ht : Avoids ' ' t ∧ Avoids ',' t ∧ Unnamed t)
    (hne : ∀ r, reading none ++ t ≠ w.toList.map .char ++ r) :
    Decodes (fun as : List BoundAssignment =>
      reading (if as.isEmpty then none else word w :: sp.assignmentList as)) (· = t) := by
  intro as bs r s hr hs h
  subst hr hs
  cases as with
  | nil =>
    cases bs with
    | nil => exact ⟨rfl, rfl⟩
    | cons b bs =>
      simp only [List.isEmpty_nil, List.isEmpty_cons, Bool.false_eq_true, if_true, if_false,
        reading_word, List.append_assoc] at h
      exact absurd h (hne _)
  | cons a as =>
    cases bs with
    | nil =>
      simp only [List.isEmpty_nil, List.isEmpty_cons, Bool.false_eq_true, if_true, if_false,
        reading_word, List.append_assoc] at h
      exact absurd h.symm (hne _)
    | cons b bs =>
      simp only [List.isEmpty_cons, Bool.false_eq_true, if_false, reading_word,
        List.append_assoc, List.append_cancel_left_eq] at h
      exact decodes_assignmentList hd ht ht h

theorem reading_onConflict_injective : Function.Injective fun u => reading (sp.onConflict u) := by
  intro u v h
  simp only [onConflict, targetAlias, List.append_assoc, List.cons_append, List.nil_append,
    reading_append, reading_word, reading_name, List.append_cancel_left_eq] at h
  obtain ⟨ht, h⟩ := decodes_table (by simp) (by simp) h
  simp only [List.append_cancel_left_eq, List.cons.injEq, true_and] at h
  obtain ⟨hc, h⟩ := decodes_columnList (by simp) (by simp) h
  rw [List.append_cancel_left_eq] at h
  obtain ⟨hn, h⟩ := decodes_valueRows (by simp) (by simp) h
  rw [List.append_cancel_left_eq] at h
  obtain ⟨hk, h⟩ := decodes_columnList (by simp) (by simp) h
  rw [List.append_cancel_left_eq] at h
  have hu := (decodes_ending hd (t := []) (by simp) (by simp)).injective rfl h
  exact Upsert.ext ht hn hc hk hu

/-- Where rows are updated, all but the key is determined: the engine finds the key itself. -/
theorem reading_onDuplicateKey {u v : Upsert} (hu : u.updates ≠ []) (hv : v.updates ≠ [])
    (h : reading (sp.onDuplicateKey u) = reading (sp.onDuplicateKey v)) :
    u.table = v.table ∧ u.rowCount = v.rowCount ∧ u.columns = v.columns ∧
      u.updates = v.updates := by
  simp only [onDuplicateKey, List.isEmpty_iff, hu, hv, if_false, List.append_assoc,
    List.cons_append, reading_append, reading_word, List.append_cancel_left_eq] at h
  obtain ⟨ht, h⟩ := decodes_table (by simp) (by simp) h
  rw [List.append_cancel_left_eq] at h
  obtain ⟨hc, h⟩ := decodes_columnList (by simp) (by simp) h
  rw [List.append_cancel_left_eq] at h
  obtain ⟨hn, h⟩ := decodes_valueRows (by simp) (by simp) h
  rw [List.append_cancel_left_eq] at h
  exact ⟨ht, hn, hc, (decodes_assignmentList hd).injective (by simp) h⟩

omit hd in
theorem decodes_keyEqualities :
    Decodes (fun ks : List String => reading (separated " AND " (ks.map keyEquality)))
      (fun r => ¬ (" AND ".toList.map .char) <+: r ∧ Unnamed r) := by
  have hk : Decodes (fun k => reading (keyEquality k)) (fun _ => True) := by
    intro a b r s _ _ h
    simp only [keyEquality, targetAlias, sourceAlias, reading_name, reading_word, reading_nil,
      List.cons_append, List.append_assoc, List.nil_append, List.cons.injEq, true_and,
      List.append_cancel_left_eq, Token.name.injEq] at h
    exact h.2
  simp only [reading_separated]
  refine hk.list (fun _ => trivial) (fun r hr => ⟨trivial, hr.1⟩) ?_
  intro a r s hs h
  exact hs.2 "T" (h ▸ rfl)

theorem reading_merge_injective : Function.Injective fun u => reading (sp.merge u) := by
  intro u v h
  simp only [merge, targetAlias, sourceAlias, List.append_assoc, List.cons_append,
    List.nil_append, reading_append, reading_word, reading_name, List.append_cancel_left_eq] at h
  obtain ⟨ht, h⟩ := decodes_table (by simp) (by simp) h
  simp only [List.append_cancel_left_eq, List.cons.injEq, true_and] at h
  obtain ⟨hn, h⟩ := decodes_valueRows (by simp) (by simp) h
  simp only [List.append_cancel_left_eq, List.cons.injEq, true_and] at h
  obtain ⟨hc, h⟩ := decodes_columnList (by simp) (by simp) h
  rw [List.append_cancel_left_eq] at h
  obtain ⟨hk, h⟩ := decodes_keyEqualities (by simp) (by simp) h
  rw [hc] at h
  simp only [List.append_cancel_left_eq] at h
  obtain ⟨hu, -⟩ := decodes_ending hd (by simp) (by simp) rfl rfl h
  exact Upsert.ext ht hn hc hk hu

end Spelling
end UpsertSql
