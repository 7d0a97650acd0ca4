import UpsertSql.Proofs.Alike.Command
import UpsertSql.Proofs.Dialect.Reading

/-! Statements for upserts that are alike: the same words and parameters in the same order, and
corresponding names between them. Written down, they still differ in nothing but what stands between
quotes. -/
namespace UpsertSql
open List (Forall₂)

variable {P : String → String → Prop}

theorem Operand.Alike.imp {κ κ' γ γ' : Type} {K : κ → κ' → Prop} {C D : γ → γ' → Prop}
    (hCD : ∀ c d, C c d → D c d) {a : Operand κ γ} {b : Operand κ' γ'} (h : Operand.Alike K C a b) :
    Operand.Alike K D a b := by
  cases h with
  | constant hk => exact .constant hk
  | column side hc => exact .column side (hCD _ _ hc)

theorem Formula.Alike.imp {α β : Type} {R S : α → β → Prop} (hRS : ∀ a b, R a b → S a b)
    {e : Formula α} {f : Formula β} (h : Formula.Alike R e f) : Formula.Alike S e f := by
  cases h with
  | single ha => exact .single (hRS _ _ ha)
  | arith op ha hb => exact .arith op (hRS _ _ ha) (hRS _ _ hb)

theorem TableName.Alike.imp {T : String → String → Prop} (hT : ∀ a b, T a b → P a b)
    {t u : TableName} (h : TableName.Alike T t u) : TableName.Alike P t u := by
  obtain ⟨n, q⟩ := t
  obtain ⟨n', q'⟩ := u
  obtain ⟨hn, hq⟩ := h
  refine ⟨hT _ _ hn, ?_⟩
  cases hq with
  | some hq => exact .some (hT _ _ hq)
  | none => exact .none

/-- Names of tables and of columns may be taken together. -/
theorem Upsert.Alike.imp {T N : String → String → Prop} (hT : ∀ a b, T a b → P a b)
    (hN : ∀ a b, N a b → P a b) {u v : Upsert} (h : u.Alike T N v) : u.Alike P P v where
  table := h.table.imp hT
  rowCount := h.rowCount
  columns := h.columns.imp hN
  keys := h.keys.imp hN
  updates := h.updates.imp fun _ _ hab =>
    ⟨hN _ _ hab.column, hab.formula.imp fun _ _ ha => ha.imp hN⟩

namespace Piece

inductive Alike (P : String → String → Prop) : Piece → Piece → Prop
  | word (w : String) : Alike P (word w) (word w)
  | name {a b : String} (h : P a b) : Alike P (name a) (name b)
  | parameter (i : Nat) : Alike P (parameter i) (parameter i)

theorem forall₂_separated (sep : String) {l l' : List (List Piece)}
    (h : Forall₂ (Forall₂ (Alike P)) l l') :
    Forall₂ (Alike P) (separated sep l) (separated sep l') := by
  cases h with
  | nil => exact .nil
  | cons hx hl =>
    rw [separated_cons, separated_cons]
    exact List.rel_append hx (List.rel_flatMap hl fun _ _ hy => .cons (.word sep) hy)

theorem forall₂_table {t u : TableName} (h : TableName.Alike P t u) :
    Forall₂ (Alike P) (table t) (table u) := by
  obtain ⟨n, q⟩ := t
  obtain ⟨n', q'⟩ := u
  obtain ⟨hn, hq⟩ := h
  cases hq with
  | some hq => exact .cons (.name hq) (.cons (.word ".") (.cons (.name hn) .nil))
  | none => exact .cons (.name hn) .nil

theorem forall₂_columnList {cs ds : List String} (h : Forall₂ P cs ds) :
    Forall₂ (Alike P) (columnList cs) (columnList ds) :=
  forall₂_separated ", " (List.rel_map (fun _ _ hc => .cons (.name hc) .nil) h)

/-- Rows of parameters hold no names, so they are the same whatever the names are. -/
theorem forall₂_valueRows (n k : Nat) : Forall₂ (Alike P) (valueRows n k) (valueRows n k) := by
  have row (r : Nat) : Forall₂ (Alike P) (valueRow k r) (valueRow k r) := by
    refine .cons (.word "(") (List.rel_append (forall₂_separated ", " ?_) (.cons (.word ")") .nil))
    refine List.rel_map (fun c d (h : c = d) => ?_) (List.forall₂_same.2 fun _ _ => rfl)
    rw [h]
    exact .cons (.parameter _) .nil
  refine forall₂_separated ", " (List.rel_map (fun r r' (h : r = r') => ?_)
    (List.forall₂_same.2 fun _ _ => rfl))
  rw [h]
  exact row r'

end Piece

namespace Spelling
open Piece

/-- What the spelling puts around columns is alike on both sides. -/
structure Steady (sp : Spelling) (P : String → String → Prop) : Prop where
  sourceOpening : Forall₂ (Piece.Alike P) sp.sourceOpening sp.sourceOpening
  sourceClosing : Forall₂ (Piece.Alike P) sp.sourceClosing sp.sourceClosing
  targetOpening : Forall₂ (Piece.Alike P) sp.targetOpening sp.targetOpening

variable {sp : Spelling} (h : sp.Steady P)
include h

theorem forall₂_operand {a b : Operand Nat String} (hab : Operand.Alike Eq P a b) :
    Forall₂ (Piece.Alike P) (sp.operand a) (sp.operand b) := by
  cases hab with
  | @constant i j hij =>
    rw [hij]
    exact .cons (.parameter j) .nil
  | column side hc =>
    cases side with
    | source => exact List.rel_append h.sourceOpening (.cons (.name hc) h.sourceClosing)
    | target => exact List.rel_append h.targetOpening (.cons (.name hc) .nil)

theorem forall₂_assignment {a b : BoundAssignment} (hab : Assignment.Alike Eq P a b) :
    Forall₂ (Piece.Alike P) (sp.assignment a) (sp.assignment b) := by
  obtain ⟨c, e⟩ := a
  obtain ⟨d, f⟩ := b
  refine .cons (.name hab.column) (.cons (.word " = ") ?_)
  cases hab.formula with
  | single ha => exact forall₂_operand h ha
  | arith op ha hb =>
    exact List.rel_append (forall₂_operand h ha) (.cons (.word _) (forall₂_operand h hb))

theorem forall₂_assignmentList {as bs : List BoundAssignment}
    (hl : Forall₂ (Assignment.Alike Eq P) as bs) :
    Forall₂ (Piece.Alike P) (sp.assignmentList as) (sp.assignmentList bs) :=
  forall₂_separated ", " (List.rel_map (fun _ _ hab => forall₂_assignment h hab) hl)

/-- Either both upserts have updates or neither has. -/
theorem forall₂_ending {as bs : List BoundAssignment} (hl : Forall₂ (Assignment.Alike Eq P) as bs)
    (w : String) {none none' : List Piece} (hn : Forall₂ (Piece.Alike P) none none') :
    Forall₂ (Piece.Alike P) (if as.isEmpty then none else word w :: sp.assignmentList as)
      (if bs.isEmpty then none' else word w :: sp.assignmentList bs) := by
  cases hl with
  | nil => exact hn
  | cons hab hl => exact .cons (.word w) (forall₂_assignmentList h (.cons hab hl))

omit h in
theorem forall₂_rows {u v : Upsert} (huv : u.Alike P P v) :
    Forall₂ (Piece.Alike P) (valueRows u.rowCount u.columns.length)
      (valueRows v.rowCount v.columns.length) := by
  rw [huv.rowCount, huv.columns.length_eq]
  exact forall₂_valueRows _ _

variable {u v : Upsert} (huv : u.Alike P P v)
include huv

theorem forall₂_onConflict (hT : P "T" "T") :
    Forall₂ (Piece.Alike P) (sp.onConflict u) (sp.onConflict v) := by
  have hcs := forall₂_columnList huv.columns
  have hks := forall₂_columnList huv.keys
  have hend := forall₂_ending h huv.updates " DO UPDATE SET " (.cons (.word " DO NOTHING") .nil)
  simp only [onConflict, List.append_assoc, List.cons_append, List.nil_append]
  refine .cons (.word _) (List.rel_append (forall₂_table huv.table) ?_)
  refine .cons (.word _) (.cons (.name hT) (.cons (.word _) (List.rel_append hcs ?_)))
  refine .cons (.word _) (List.rel_append (forall₂_rows huv) ?_)
  exact .cons (.word _) (List.rel_append hks (.cons (.word _) hend))

theorem forall₂_onDuplicateKey :
    Forall₂ (Piece.Alike P) (sp.onDuplicateKey u) (sp.onDuplicateKey v) := by
  have hcs := forall₂_columnList huv.columns
  have hks := huv.keys
  simp only [onDuplicateKey, List.append_assoc, List.cons_append]
  refine .cons (.word _) (List.rel_append (forall₂_table huv.table) ?_)
  refine .cons (.word _) (List.rel_append hcs ?_)
  refine .cons (.word _) (List.rel_append (forall₂_rows huv) ?_)
  refine forall₂_ending h huv.updates " ON DUPLICATE KEY UPDATE " ?_
  -- without updates the first key is set to itself, if there is one
  generalize u.keys = ks, v.keys = ls at hks ⊢
  cases hks with
  | nil => exact .nil
  | cons hk hks =>
    exact .cons (.word _) (.cons (.name hk) (.cons (.word _) (.cons (.name hk) .nil)))

theorem forall₂_merge (hT : P "T" "T") (hS : P "S" "S") :
    Forall₂ (Piece.Alike P) (sp.merge u) (sp.merge v) := by
  have hcs := forall₂_columnList huv.columns
  have hks : Forall₂ (Piece.Alike P) (separated " AND " (u.keys.map keyEquality))
      (separated " AND " (v.keys.map keyEquality)) := by
    refine forall₂_separated " AND " (List.rel_map (fun k l hk => ?_) huv.keys)
    refine .cons (.name hT) (.cons (.word _) (.cons (.name hk) (.cons (.word _) ?_)))
    exact .cons (.name hS) (.cons (.word _) (.cons (.name hk) .nil))
  have hss : Forall₂ (Piece.Alike P) (separated ", " (u.columns.map sourceColumn))
      (separated ", " (v.columns.map sourceColumn)) := by
    refine forall₂_separated ", " (List.rel_map (fun c d hc => ?_) huv.columns)
    exact .cons (.name hS) (.cons (.word _) (.cons (.name hc) .nil))
  have hend := forall₂_ending h huv.updates " WHEN MATCHED THEN UPDATE SET " .nil
  simp only [merge, List.append_assoc, List.cons_append, List.nil_append]
  refine .cons (.word _) (List.rel_append (forall₂_table huv.table) ?_)
  refine .cons (.word _) (.cons (.name hT) (.cons (.word _) ?_))
  refine List.rel_append (forall₂_rows huv) (.cons (.word _) (.cons (.name hS) (.cons (.word _) ?_)))
  refine List.rel_append hcs (.cons (.word _) (List.rel_append hks ?_))
  refine .cons (.word _) (List.rel_append hcs (.cons (.word _) (List.rel_append hss ?_)))
  exact .cons (.word _) (List.rel_append hend (.cons (.word _) .nil))

end Spelling

/-- The same character, or names that correspond. -/
inductive Lexeme.Alike (P : String → String → Prop) : Lexeme → Lexeme → Prop
  | char (c : Char) : Alike P (.char c) (.char c)
  | name {s t : List Char} (h : P (.ofList s) (.ofList t)) : Alike P (.name s) (.name t)

theorem Spelling.forall₂_lexemes (sp : Spelling) {ps qs : List Piece}
    (h : Forall₂ (Piece.Alike P) ps qs) :
    Forall₂ (Lexeme.Alike P) (ps.flatMap sp.lexemes) (qs.flatMap sp.lexemes) := by
  have chars (w : List Char) : Forall₂ (Lexeme.Alike P) (w.map .char) (w.map .char) :=
    List.rel_map (fun c d (hcd : c = d) => hcd ▸ .char c) (List.forall₂_same.2 fun _ _ => rfl)
  refine List.rel_flatMap h fun p q hpq => ?_
  cases hpq with
  | word w => exact chars w.toList
  | @name a b hab =>
    refine .cons (.name ?_) .nil
    rw [String.ofList_toList, String.ofList_toList]
    exact hab
  | parameter i => exact chars (sp.placeholder i).toList

namespace Engine

theorem steady (e : Engine) (hT : P "T" "T") (hS : P "S" "S") : e.renderer.Steady P := by
  cases e with
  | postgres => exact ⟨.cons (.word _) .nil, .nil, .cons (.name hT) (.cons (.word _) .nil)⟩
  | sqlite => exact ⟨.cons (.word _) .nil, .nil, .cons (.name hT) (.cons (.word _) .nil)⟩
  | mysql => exact ⟨.cons (.word _) .nil, .cons (.word _) .nil, .nil⟩
  | sqlserver =>
    exact ⟨.cons (.name hS) (.cons (.word _) .nil), .nil, .cons (.name hT) (.cons (.word _) .nil)⟩

theorem forall₂_pieces (e : Engine) (hT : P "T" "T") (hS : P "S" "S") {u v : Upsert}
    (huv : u.Alike P P v) : Forall₂ (Piece.Alike P) (e.pieces u) (e.pieces v) := by
  have h := e.steady hT hS
  cases e with
  | postgres => exact Spelling.forall₂_onConflict h huv hT
  | sqlite => exact Spelling.forall₂_onConflict h huv hT
  | mysql => exact Spelling.forall₂_onDuplicateKey h huv
  | sqlserver => exact Spelling.forall₂_merge h huv hT hS

/-- What a reader of names makes of a statement. -/
theorem lexemes_statement (e : Engine) (u : Upsert) :
    e.renderer.quotes.lexemes (e.renderer.statement u).toList =
      some ((e.pieces u).flatMap e.renderer.lexemes) := by
  rw [e.statement_eq_write, Spelling.lexemes_write e.clear (e.legible_pieces u)]

end Engine
end UpsertSql
