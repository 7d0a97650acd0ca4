import UpsertSql.Text.Quoted

/-! Statement text as a reader of SQL takes it: quoted names, and the characters outside them. -/
namespace UpsertSql

inductive Lexeme where
  | char (c : Char)
  | name (s : List Char)
  deriving DecidableEq

namespace Quotes

/-- Nothing is given for a text that ends inside a quoted name. -/
def lexemes (q : Quotes) : List Char → Option (List Lexeme)
  | [] => some []
  | c :: t =>
    if c = q.opening then
      match h : q.readRest t with
      | some (s, rest) =>
        have := q.readRest_length h
        (q.lexemes rest).map (.name s :: ·)
      | none => none
    else (q.lexemes t).map (.char c :: ·)
termination_by t => t.length

variable (q : Quotes)

theorem lexemes_cons_of_ne {c : Char} (h : c ≠ q.opening) (t : List Char) :
    q.lexemes (c :: t) = (q.lexemes t).map (.char c :: ·) := by
  rw [lexemes]
  simp [h]

/-- Text without opening quotes is taken character by character. -/
theorem lexemes_append {w : List Char} (h : q.opening ∉ w) (t : List Char) :
    q.lexemes (w ++ t) = (q.lexemes t).map (w.map .char ++ ·) := by
  induction w with
  | nil => simp
  | cons c w ih =>
    simp only [List.mem_cons, not_or] at h
    rw [List.cons_append, q.lexemes_cons_of_ne (Ne.symm h.1), ih h.2]
    simp [Function.comp_def]

/-- A name is taken whole wherever its closing quote is not followed by another. -/
theorem lexemes_quote (name : String) {rest : List Char} (h : rest.head? ≠ some q.closing) :
    q.lexemes ((q.quote name).toList ++ rest) =
      (q.lexemes rest).map (.name name.toList :: ·) := by
  have hr := q.readRest_escape name.toList h
  simp only [quote, String.toList_ofList, List.cons_append, List.append_assoc, List.nil_append]
  rw [lexemes]
  simp only [if_true]
  split
  · simp_all
  · simp_all

end Quotes
end UpsertSql
