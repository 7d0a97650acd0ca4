/-! Names between two quote characters. The closing one is doubled inside a name; the opening one
needs no care. A quoted name is read back from the front of any text that does not go on with the
closing quote. -/
namespace UpsertSql

structure Quotes where
  opening : Char
  closing : Char
  deriving DecidableEq

namespace Quotes

def double : Quotes := ⟨'"', '"'⟩
def back : Quotes := ⟨'\x60', '\x60'⟩
def square : Quotes := ⟨'[', ']'⟩

def escape (q : Quotes) (s : List Char) : List Char :=
  s.flatMap fun c => if c = q.closing then [c, c] else [c]

def quote (q : Quotes) (name : String) : String :=
  String.ofList (q.opening :: (q.escape name.toList ++ [q.closing]))

/-- Reads on inside a quoted name up to the first closing quote that stands alone, and gives the
name and what follows it. -/
def readRest (q : Quotes) : List Char → Option (List Char × List Char)
  | [] => none
  | [c] => if c = q.closing then some ([], []) else none
  | c :: d :: rest =>
    if c ≠ q.closing then (q.readRest (d :: rest)).map fun (s, r) => (c :: s, r)
    else if d = q.closing then (q.readRest rest).map fun (s, r) => (c :: s, r)
    else some ([], d :: rest)

/-- Reads a quoted name from the front of a text. -/
def read (q : Quotes) : List Char → Option (List Char × List Char)
  | [] => none
  | c :: rest => if c = q.opening then q.readRest rest else none

variable (q : Quotes)

theorem escape_cons (c : Char) (s : List Char) :
    q.escape (c :: s) = (if c = q.closing then [c, c] else [c]) ++ q.escape s := rfl

theorem readRest_cons_of_ne {c : Char} (h : c ≠ q.closing) (t : List Char) :
    q.readRest (c :: t) = (q.readRest t).map fun (s, r) => (c :: s, r) := by
  cases t <;> simp [readRest, h]

theorem readRest_closing {rest : List Char} (h : rest.head? ≠ some q.closing) :
    q.readRest (q.closing :: rest) = some ([], rest) := by
  cases rest with
  | nil => simp [readRest]
  | cons d r =>
    have hd : d ≠ q.closing := by simpa using h
    simp [readRest, hd]

theorem readRest_escape (s : List Char) {rest : List Char} (h : rest.head? ≠ some q.closing) :
    q.readRest (q.escape s ++ q.closing :: rest) = some (s, rest) := by
  induction s with
  | nil => simpa [escape] using q.readRest_closing h
  | cons c s ih =>
    by_cases hc : c = q.closing
    · simp [escape_cons, hc, readRest, ih]
    · simp [escape_cons, hc, readRest_cons_of_ne, ih]

theorem readRest_length {t s rest : List Char} (h : q.readRest t = some (s, rest)) :
    rest.length < t.length := by
  fun_induction q.readRest t generalizing s rest with
  | case1 => simp at h
  | case2 => simp at h; simp [← h.2]
  | case3 => simp at h
  | case4 c d t hc ih =>
    obtain ⟨⟨s', r⟩, hr, he⟩ := Option.map_eq_some_iff.1 h
    obtain ⟨-, rfl⟩ := Prod.mk.inj he
    exact Nat.lt_succ_of_lt (ih hr)
  | case5 c t hc ih =>
    obtain ⟨⟨s', r⟩, hr, he⟩ := Option.map_eq_some_iff.1 h
    obtain ⟨-, rfl⟩ := Prod.mk.inj he
    have := ih hr
    simp only [List.length_cons]
    omega
  | case6 => simp at h; simp [← h.2]

end Quotes
end UpsertSql
