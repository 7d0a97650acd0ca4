import UpsertSql.Dialect.Basic
import UpsertSql.Proofs.Text.Token

/-! Pieces that can be told apart once they are written down. Words keep clear of quotes, marks and
digits, and between any two names or parameters there is a word: then a reader of the text meets the
same names and parameters in the same order, whatever the names hold. -/
namespace UpsertSql

/-- Characters that mean something to a reader of statements: quotes, the first characters of
placeholders, and digits. -/
def reserved (c : Char) : Bool :=
  c.isDigit || ['"', '\x60', '[', ']', '$', '?', '@'].contains c

/-- Text that a reader takes for nothing but itself. -/
def Plain (w : String) : Prop := w.toList ≠ [] ∧ ∀ c ∈ w.toList, reserved c = false

instance (w : String) : Decidable (Plain w) :=
  @instDecidableAnd _ _ _ (List.decidableBAll _ w.toList)

theorem Plain.notMem {w : String} (h : Plain w) {c : Char} (hc : reserved c) : c ∉ w.toList := by
  intro hm
  simp [h.2 c hm] at hc

theorem Plain.head {w : String} (h : Plain w) :
    ∃ c cs, w.toList = c :: cs ∧ reserved c = false := by
  cases hw : w.toList with
  | nil => exact absurd hw h.1
  | cons c cs => exact ⟨c, cs, rfl, h.2 c (by simp [hw])⟩

namespace Piece

/-- What a reader makes of a piece. -/
def tokens : Piece → List (Token Nat)
  | word w => w.toList.map .char
  | name s => [.name s]
  | parameter i => [.placeholder i]

/-- What a reader makes of pieces one after the other. -/
def reading (ps : List Piece) : List (Token Nat) := ps.flatMap tokens

@[simp]
theorem reading_nil : reading [] = [] := rfl

@[simp]
theorem reading_word (w : String) (ps : List Piece) :
    reading (word w :: ps) = w.toList.map .char ++ reading ps := rfl

@[simp]
theorem reading_name (s : String) (ps : List Piece) :
    reading (name s :: ps) = .name s :: reading ps := rfl

@[simp]
theorem reading_parameter (i : Nat) (ps : List Piece) :
    reading (parameter i :: ps) = .placeholder i :: reading ps := rfl

@[simp]
theorem reading_append (ps qs : List Piece) : reading (ps ++ qs) = reading ps ++ reading qs :=
  List.flatMap_append

def index? : Piece → Option Nat
  | parameter i => some i
  | _ => none

/-- Nothing follows, or a word does. -/
def Spaced : List Piece → Prop
  | [] => True
  | word _ :: _ => True
  | _ :: _ => False

@[simp]
theorem spaced_nil : Spaced [] := trivial

@[simp]
theorem spaced_word (w : String) (ps : List Piece) : Spaced (word w :: ps) := trivial

@[simp]
def Legible : List Piece → Prop
  | [] => True
  | word w :: ps => Plain w ∧ Legible ps
  | name _ :: ps => Spaced ps ∧ Legible ps
  | parameter _ :: ps => Spaced ps ∧ Legible ps

theorem spaced_append_word (ps : List Piece) (w : String) (qs : List Piece) :
    Spaced (ps ++ word w :: qs) ↔ Spaced ps := by
  cases ps with
  | nil => simp
  | cons p ps => cases p <;> simp [Spaced]

/-- A word parts what stands before it from what follows. -/
@[simp]
theorem legible_append_word (ps : List Piece) (w : String) (qs : List Piece) :
    Legible (ps ++ word w :: qs) ↔ Legible ps ∧ Plain w ∧ Legible qs := by
  induction ps with
  | nil => simp
  | cons p ps ih => cases p <;> simp [ih, spaced_append_word, and_assoc]

/-- Each of two parts is legible on its own. -/
theorem legible_of_append {ps qs : List Piece} (h : Legible (ps ++ qs)) :
    Legible ps ∧ Legible qs := by
  induction ps with
  | nil => exact ⟨trivial, h⟩
  | cons p ps ih =>
    obtain ⟨hp, hq⟩ := ih (by cases p <;> exact h.2)
    have hs : Spaced (ps ++ qs) → Spaced ps := by
      cases ps with
      | nil => exact fun _ => trivial
      | cons p ps => cases p <;> exact id
    cases p with
    | word w => exact ⟨⟨h.1, hp⟩, hq⟩
    | name s => exact ⟨⟨hs h.1, hp⟩, hq⟩
    | parameter i => exact ⟨⟨hs h.1, hp⟩, hq⟩

@[simp]
theorem separated_nil (sep : String) : separated sep [] = [] := rfl

theorem separated_cons (sep : String) (x : List Piece) (l : List (List Piece)) :
    separated sep (x :: l) = x ++ l.flatMap (word sep :: ·) := by
  induction l generalizing x with
  | nil => simp [separated]
  | cons y l ih =>
    have hy := ih y
    unfold separated at hy ⊢
    rw [List.intercalate_cons_cons, hy]
    simp

theorem legible_separated {sep : String} (hs : Plain sep) {l : List (List Piece)}
    (hl : ∀ x ∈ l, Legible x) : Legible (separated sep l) := by
  cases l with
  | nil => simp
  | cons x l =>
    rw [separated_cons]
    have hx := hl x (by simp)
    have ht : ∀ y ∈ l, Legible y := fun y hy => hl y (List.mem_cons_of_mem x hy)
    clear hl
    induction l generalizing x with
    | nil => simpa using hx
    | cons y l ih =>
      rw [List.flatMap_cons, List.cons_append, legible_append_word]
      exact ⟨hx, hs, ih y (ht y (by simp)) fun z hz => ht z (List.mem_cons_of_mem y hz)⟩

end Piece

namespace Spelling
open Piece
variable {sp : Spelling}

theorem write_nil : sp.write [] = "" := rfl

theorem write_append (ps qs : List Piece) : sp.write (ps ++ qs) = sp.write ps ++ sp.write qs := by
  rw [write, List.map_append, String.join_append]
  rfl

theorem write_cons (p : Piece) (ps : List Piece) :
    sp.write (p :: ps) = sp.writePiece p ++ sp.write ps := by
  rw [write, List.map_cons, String.join_cons]
  rfl

theorem write_singleton (p : Piece) : sp.write [p] = sp.writePiece p := by
  rw [write_cons, write_nil, String.append_empty]

theorem toList_write_cons (p : Piece) (ps : List Piece) :
    (sp.write (p :: ps)).toList = (sp.writePiece p).toList ++ (sp.write ps).toList := by
  rw [write_cons, String.toList_append]

/-- What a reader makes of a piece in this spelling, before it looks for placeholders. -/
def lexemes (sp : Spelling) : Piece → List Lexeme
  | word w => w.toList.map .char
  | name s => [.name s.toList]
  | parameter i => (sp.placeholder i).toList.map .char

/-- Quotes and placeholders are written with what no plain word holds. -/
structure Clear (sp : Spelling) (k : Marker) : Prop where
  opening : reserved sp.quotes.opening
  closing : reserved sp.quotes.closing
  first : reserved k.first
  unquoted : ∀ i, sp.quotes.opening ∉ (sp.placeholder i).toList
  spelled : ∀ i, ∃ ds, (sp.placeholder i).toList = k.first :: (k.more ++ ds) ∧ k.Admits ds

variable {k : Marker} (h : sp.Clear k)
include h

theorem head?_write {ps : List Piece} (hs : Spaced ps) (hl : Legible ps) :
    (sp.write ps).toList.head? ≠ some sp.quotes.closing := by
  cases ps with
  | nil => simp [write_nil]
  | cons p ps =>
    cases p with
    | word w =>
      obtain ⟨c, cs, hw, hc⟩ := hl.1.head
      intro he
      rw [toList_write_cons, writePiece, hw] at he
      obtain rfl : c = sp.quotes.closing := Option.some.inj he
      simp [h.closing] at hc
    | name s => exact hs.elim
    | parameter i => exact hs.elim

omit h in
theorem ends_lexemes {ps : List Piece} (hs : Spaced ps) (hl : Legible ps) :
    Lexeme.Ends (ps.flatMap sp.lexemes) := by
  intro d hd
  cases ps with
  | nil => simp at hd
  | cons p ps =>
    cases p with
    | word w =>
      obtain ⟨c, cs, hw, hc⟩ := hl.1.head
      rw [List.flatMap_cons, lexemes, hw] at hd
      obtain rfl : c = d := by simpa using hd
      simp only [reserved, Bool.or_eq_false_iff] at hc
      exact hc.1
    | name s => exact hs.elim
    | parameter i => exact hs.elim

/-- The names in the text are those of the pieces, and outside them stands what was written
there. -/
theorem lexemes_write {ps : List Piece} (hl : Legible ps) :
    sp.quotes.lexemes (sp.write ps).toList = some (ps.flatMap sp.lexemes) := by
  induction ps with
  | nil => rw [write_nil]; simp [Quotes.lexemes]
  | cons p ps ih =>
    rw [toList_write_cons, List.flatMap_cons]
    cases p with
    | word w =>
      rw [writePiece, Quotes.lexemes_append _ (hl.1.notMem h.opening), ih hl.2]
      rfl
    | name s =>
      rw [writePiece, Quotes.lexemes_quote _ _ (head?_write h hl.1 hl.2), ih hl.2]
      rfl
    | parameter i =>
      rw [writePiece, Quotes.lexemes_append _ (h.unquoted i), ih hl.2]
      rfl

theorem tokens_lexemes {ps : List Piece} (hl : Legible ps) :
    k.tokens (ps.flatMap sp.lexemes) = (reading ps).map (.map sp.placeholder) := by
  induction ps with
  | nil => simp [Marker.tokens]
  | cons p ps ih =>
    rw [List.flatMap_cons]
    cases p with
    | word w =>
      rw [lexemes, k.tokens_chars (hl.1.notMem h.first), ih hl.2]
      simp [Token.map]
    | name s =>
      rw [lexemes, List.cons_append, k.tokens_name, List.nil_append, ih hl.2]
      simp [Token.map]
    | parameter i =>
      obtain ⟨ds, he, hd⟩ := h.spelled i
      rw [lexemes, he, k.tokens_placeholder hd (ends_lexemes hl.1 hl.2), ih hl.2, ← he]
      simp [Token.map]

end Spelling
end UpsertSql
