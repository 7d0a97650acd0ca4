import Mathlib.Logic.Function.Basic
import UpsertSql.Dialect.Basic
import UpsertSql.Proofs.Text.Decodable

/-! Quoted names in front of other text. The reader accepts what quoting writes and nothing else, so
that a name can be told wherever the text after it does not go on with the closing quote; and so can
a table with its namespace, if the closing quote is not the point that stands between the two. -/
namespace UpsertSql

namespace Quotes
variable (q : Quotes)

theorem toList_quote (name : String) :
    (q.quote name).toList = q.opening :: (q.escape name.toList ++ [q.closing]) := by
  rw [quote, String.toList_ofList]

theorem escape_of_ne {c : Char} (h : c ≠ q.closing) (s : List Char) :
    q.escape (c :: s) = c :: q.escape s := by
  rw [escape_cons, if_neg h]
  rfl

theorem escape_closing (s : List Char) :
    q.escape (q.closing :: s) = q.closing :: q.closing :: q.escape s := by
  rw [escape_cons, if_pos rfl]
  rfl

/-- What is read was escaped, and what is left could not have been read on. -/
theorem eq_escape_of_readRest {t s rest : List Char} (h : q.readRest t = some (s, rest)) :
    t = q.escape s ++ q.closing :: rest ∧ rest.head? ≠ some q.closing := by
  fun_induction q.readRest t generalizing s rest with
  | case1 => cases h
  | case2 =>
    cases h
    exact ⟨rfl, by simp⟩
  | case3 => cases h
  | case4 c d t hc ih =>
    obtain ⟨⟨s', r⟩, hr, he⟩ := Option.map_eq_some_iff.1 h
    obtain ⟨rfl, rfl⟩ := Prod.mk.inj he
    obtain ⟨ht, hh⟩ := ih hr
    rw [ht, q.escape_of_ne hc]
    exact ⟨rfl, hh⟩
  | case5 c t hc ih =>
    obtain ⟨⟨s', r⟩, hr, he⟩ := Option.map_eq_some_iff.1 h
    obtain ⟨rfl, rfl⟩ := Prod.mk.inj he
    obtain ⟨ht, hh⟩ := ih hr
    obtain rfl : c = q.closing := not_ne_iff.1 hc
    rw [ht, q.escape_closing]
    exact ⟨rfl, hh⟩
  | case6 c d t hc hd =>
    cases h
    obtain rfl : c = q.closing := not_ne_iff.1 hc
    exact ⟨rfl, by simpa using hd⟩

/-- A text is read as a name and a rest if it is the quoted name before that rest. -/
theorem read_eq_some_iff {t rest : List Char} {name : String} :
    q.read t = some (name.toList, rest) ↔
      t = (q.quote name).toList ++ rest ∧ rest.head? ≠ some q.closing := by
  rw [toList_quote, List.cons_append, List.append_assoc, List.singleton_append]
  constructor
  · intro h
    cases t with
    | nil => cases h
    | cons c t =>
      rw [read] at h
      by_cases hc : c = q.opening
      · rw [if_pos hc] at h
        obtain ⟨ht, hh⟩ := q.eq_escape_of_readRest h
        exact ⟨by rw [hc, ht], hh⟩
      · rw [if_neg hc] at h
        cases h
  · intro h
    obtain ⟨rfl, hh⟩ := h
    rw [read, if_pos rfl]
    exact q.readRest_escape name.toList hh

theorem read_quote (name : String) {rest : List Char} (h : rest.head? ≠ some q.closing) :
    q.read ((q.quote name).toList ++ rest) = some (name.toList, rest) :=
  q.read_eq_some_iff.2 ⟨rfl, h⟩

theorem decodes_quote :
    Decodes (fun name => (q.quote name).toList) fun rest => rest.head? ≠ some q.closing := by
  intro a b r s hr hs h
  have hread : some (a.toList, r) = some (b.toList, s) := by
    rw [← q.read_quote a hr, ← q.read_quote b hs]
    exact congrArg q.read h
  obtain ⟨hn, hrest⟩ := Prod.mk.inj (Option.some.inj hread)
  exact ⟨String.toList_injective hn, hrest⟩

theorem quote_injective : Function.Injective q.quote := by
  intro a b h
  exact q.decodes_quote.injective nofun (congrArg String.toList h)

end Quotes

namespace Spelling
variable (sp : Spelling)

theorem toList_write_unqualified (name : String) :
    (sp.write (Piece.table { name })).toList = (sp.quotes.quote name).toList := by
  simp [write, Piece.table, writePiece, String.join]

theorem toList_write_qualified (name qualifier : String) :
    (sp.write (Piece.table { name, qualifier := some qualifier })).toList =
      (sp.quotes.quote qualifier).toList ++ '.' :: (sp.quotes.quote name).toList := by
  simp [write, Piece.table, writePiece, String.join]

/-- The point after a first name tells that there is a second one. -/
theorem decodes_table (h : sp.quotes.closing ≠ '.') :
    Decodes (fun t => (sp.write (Piece.table t)).toList)
      fun rest => rest.head? ≠ some sp.quotes.closing ∧ rest.head? ≠ some '.' := by
  have hq := sp.quotes.decodes_quote
  have hpoint (t : List Char) : ('.' :: t).head? ≠ some sp.quotes.closing := by
    intro he
    exact h (Option.some.inj he).symm
  rintro ⟨n, q⟩ ⟨n', q'⟩ r s ⟨hr, hr'⟩ ⟨hs, hs'⟩ he
  cases q with
  | none =>
    cases q' with
    | none =>
      simp only [toList_write_unqualified] at he
      obtain ⟨rfl, hrs⟩ := hq hr hs he
      exact ⟨rfl, hrs⟩
    | some q' =>
      simp only [toList_write_unqualified, toList_write_qualified, List.append_assoc,
        List.cons_append] at he
      obtain ⟨-, rfl⟩ := hq hr (hpoint _) he
      exact absurd rfl hr'
  | some q =>
    cases q' with
    | none =>
      simp only [toList_write_unqualified, toList_write_qualified, List.append_assoc,
        List.cons_append] at he
      obtain ⟨-, rfl⟩ := hq (hpoint _) hs he
      exact absurd rfl hs'
    | some q' =>
      simp only [toList_write_qualified, List.append_assoc, List.cons_append] at he
      obtain ⟨rfl, ht⟩ := hq (hpoint _) (hpoint _) he
      obtain ⟨rfl, hrs⟩ := hq hr hs (List.cons.inj ht).2
      exact ⟨rfl, hrs⟩

/-- With the point for a closing quote, a name that holds two others reads like the two. -/
theorem exists_tables_alike (h : sp.quotes.closing = '.') :
    ∃ t t' : TableName, t ≠ t' ∧ sp.write (Piece.table t) = sp.write (Piece.table t') := by
  obtain ⟨⟨o, c⟩⟩ := sp
  obtain rfl : c = '.' := h
  -- an opening point is doubled in a name as well, so that then both tables need two names
  by_cases ho : o = '.'
  · refine ⟨⟨".", some ""⟩, ⟨"", some "."⟩, by decide, ?_⟩
    rw [ho]
    rfl
  · refine ⟨⟨.ofList ['.', o], none⟩, ⟨"", some ""⟩, by simp, String.toList_injective ?_⟩
    rw [toList_write_unqualified, toList_write_qualified]
    simp [Quotes.toList_quote, Quotes.escape, ho]

end Spelling

/-- A quoted name is read back wherever it stands, and nothing else is read as one. Names are told
apart by what they are quoted as; tables are, with their namespaces, unless the closing quote is a
point. -/
theorem quote_decodable (sp : Spelling) :
    (∀ (t rest : List Char) (name : String), sp.quotes.read t = some (name.toList, rest) ↔
      t = (sp.quotes.quote name).toList ++ rest ∧ rest.head? ≠ some sp.quotes.closing) ∧
    Function.Injective sp.quotes.quote ∧
    ((Function.Injective fun t => sp.write (Piece.table t)) ↔ sp.quotes.closing ≠ '.') := by
  refine ⟨?_, sp.quotes.quote_injective, ?_⟩
  · intro t rest name
    exact sp.quotes.read_eq_some_iff
  · constructor
    · intro hinj h
      obtain ⟨t, t', hne, he⟩ := sp.exists_tables_alike h
      exact hne (hinj he)
    · intro h t t' he
      exact (sp.decodes_table h).injective ⟨nofun, nofun⟩ (congrArg String.toList he)

end UpsertSql
