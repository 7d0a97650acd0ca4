import UpsertSql.Text.Lexeme

/-! Statement text as a backend takes it: quoted names and placeholders whole, all else character
by character. The reader goes from left to right and knows nothing of how the text was written. -/
namespace UpsertSql

inductive Token (π : Type) where
  | char (c : Char)
  | name (s : String)
  | placeholder (p : π)
  deriving DecidableEq

namespace Token
variable {π ρ : Type}

def map (f : π → ρ) : Token π → Token ρ
  | char c => char c
  | name s => name s
  | placeholder p => placeholder (f p)

def placeholder? : Token π → Option π
  | placeholder p => some p
  | _ => none

theorem map_injective {f : π → ρ} (hf : Function.Injective f) : Function.Injective (map f) := by
  intro a b h
  cases a <;> cases b <;> simp_all [map]
  exact hf h

theorem placeholder?_map (f : π → ρ) (t : Token π) :
    (t.map f).placeholder? = t.placeholder?.map f := by
  cases t <;> rfl

theorem filterMap_placeholder?_map (f : π → ρ) (ts : List (Token π)) :
    (ts.map (map f)).filterMap placeholder? = (ts.filterMap placeholder?).map f := by
  rw [List.filterMap_map, List.map_filterMap]
  congr 1
  funext t
  exact t.placeholder?_map f

/-- Gives the placeholders the numbers from `n` on, as they come. -/
def number (n : Nat) : List (Token π) → List (Token Nat)
  | [] => []
  | char c :: ts => char c :: number n ts
  | name s :: ts => name s :: number n ts
  | placeholder _ :: ts => placeholder n :: number (n + 1) ts

/-- Placeholders that come by consecutive numbers can be written without them. -/
theorem number_map (f : Nat → ρ) {n k : Nat} {ts : List (Token Nat)}
    (h : ts.filterMap placeholder? = List.range' n k) : number n (ts.map (map f)) = ts := by
  induction ts generalizing n k with
  | nil => rfl
  | cons t ts ih =>
    cases t with
    | char c => exact congrArg (char c :: ·) (ih h)
    | name s => exact congrArg (name s :: ·) (ih h)
    | placeholder i =>
      cases k with
      | zero => cases h
      | succ k =>
        obtain ⟨rfl, ht⟩ := List.cons.inj (h : i :: ts.filterMap placeholder? = _)
        exact congrArg (placeholder i :: ·) (ih ht)

end Token

namespace Lexeme

/-- Takes the given characters off the front. -/
def strip? : List Char → List Lexeme → Option (List Lexeme)
  | [], t => some t
  | c :: w, char d :: t => if c = d then strip? w t else none
  | _ :: _, _ => none

/-- The digits at the front, and what follows them. -/
def digits : List Lexeme → List Char × List Lexeme
  | char c :: t => if c.isDigit then (c :: (digits t).1, (digits t).2) else ([], char c :: t)
  | t => ([], t)

theorem strip?_length {w : List Char} {t rest : List Lexeme} (h : strip? w t = some rest) :
    rest.length ≤ t.length := by
  fun_induction strip? w t with
  | case1 => simp_all
  | case2 w d t ih =>
    have := ih h
    simp only [List.length_cons]
    omega
  | case3 => simp at h
  | case4 => simp at h

theorem strip?_append (w : List Char) (t : List Lexeme) : strip? w (w.map char ++ t) = some t := by
  induction w with
  | nil => rfl
  | cons c w ih => simp [strip?, ih]

theorem digits_length (t : List Lexeme) : (digits t).2.length ≤ t.length := by
  fun_induction digits t with
  | case1 c t hc ih =>
    simp only [List.length_cons]
    omega
  | case2 => exact Nat.le_refl _
  | case3 => exact Nat.le_refl _

/-- The text does not go on with a digit. -/
def Ends (t : List Lexeme) : Prop := ∀ c, t.head? = some (char c) → c.isDigit = false

theorem digits_append {ds : List Char} (hd : ∀ c ∈ ds, c.isDigit) {t : List Lexeme}
    (ht : Ends t) : digits (ds.map char ++ t) = (ds, t) := by
  induction ds with
  | nil =>
    cases t with
    | nil => rfl
    | cons x t =>
      cases x with
      | char c => simp [digits, ht c rfl]
      | name s => rfl
  | cons c ds ih =>
    have hc : c.isDigit := hd c (by simp)
    have hds := ih fun d h => hd d (List.mem_cons_of_mem c h)
    simp [digits, hc, hds]

end Lexeme

/-- How placeholders begin, and whether a number belongs to them. -/
structure Marker where
  first : Char
  more : List Char := []
  numbered : Bool := true

namespace Marker
variable (k : Marker)

def number (t : List Lexeme) : List Char × List Lexeme :=
  if k.numbered then Lexeme.digits t else ([], t)

theorem number_length (t : List Lexeme) : (k.number t).2.length ≤ t.length := by
  unfold number
  split
  · exact Lexeme.digits_length t
  · exact Nat.le_refl _

def tokens : List Lexeme → List (Token String)
  | [] => []
  | .name s :: t => .name (String.ofList s) :: tokens t
  | .char c :: t =>
    if c = k.first then
      match h : Lexeme.strip? k.more t with
      | some rest =>
        have := Lexeme.strip?_length h
        have := k.number_length rest
        .placeholder (String.ofList (k.first :: (k.more ++ (k.number rest).1)))
          :: tokens (k.number rest).2
      | none => .char c :: tokens t
    else .char c :: tokens t
termination_by t => t.length

/-- The digits belong to a placeholder: there are none where it has no number. -/
structure Admits (ds : List Char) : Prop where
  digits : ∀ c ∈ ds, c.isDigit
  numbered : k.numbered = false → ds = []

theorem number_append {ds : List Char} (hd : k.Admits ds) {t : List Lexeme}
    (ht : Lexeme.Ends t) : k.number (ds.map .char ++ t) = (ds, t) := by
  unfold number
  split
  · exact Lexeme.digits_append hd.digits ht
  · next hn => simp [hd.numbered (by simpa using hn)]

theorem tokens_name (s : List Char) (t : List Lexeme) :
    k.tokens (.name s :: t) = .name (String.ofList s) :: k.tokens t := by
  rw [tokens]

theorem tokens_chars {w : List Char} (h : k.first ∉ w) (t : List Lexeme) :
    k.tokens (w.map .char ++ t) = w.map .char ++ k.tokens t := by
  induction w with
  | nil => rfl
  | cons c w ih =>
    simp only [List.mem_cons, not_or] at h
    rw [List.map_cons, List.cons_append, tokens, if_neg (Ne.symm h.1), ih h.2]
    rfl

/-- A placeholder is taken whole wherever no further digit follows. -/
theorem tokens_placeholder {ds : List Char} (hd : k.Admits ds) {t : List Lexeme}
    (ht : Lexeme.Ends t) :
    k.tokens ((k.first :: (k.more ++ ds)).map .char ++ t) =
      .placeholder (String.ofList (k.first :: (k.more ++ ds))) :: k.tokens t := by
  have hs : Lexeme.strip? k.more ((k.more ++ ds).map .char ++ t) = some (ds.map .char ++ t) := by
    rw [List.map_append, List.append_assoc, Lexeme.strip?_append]
  have hn := k.number_append hd ht
  rw [List.map_cons, List.cons_append, tokens, if_pos rfl]
  split
  · next rest h =>
    obtain rfl : ds.map .char ++ t = rest := Option.some.inj (hs.symm.trans h)
    simp only [hn]
  · next h => cases hs.symm.trans h

end Marker
end UpsertSql
