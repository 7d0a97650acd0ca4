import UpsertSql.Proofs.Dialect.Decoding
import UpsertSql.Proofs.Text.Group

/-! The lists in a statement: the names of the columns come first of all names, and of everything
that is listed only the rows begin with a placeholder. -/
namespace UpsertSql
open Token (groups listed Flat begins isName isPlaceholder)

namespace Piece

theorem reading_listed (items : List (List Piece)) :
    reading (separated ", " items) = listed (items.map reading) := by
  induction items with
  | nil => rfl
  | cons x items ih =>
    cases items with
    | nil => simp [separated, listed]
    | cons y items =>
      have hsep : reading [word ", "] = [.char ',', .char ' '] := rfl
      rw [separated, List.intercalate_cons_cons, reading_append, reading_append, hsep]
      rw [separated] at ih
      rw [ih, List.map_cons, List.map_cons, List.map_cons, Token.listed_cons_cons]
      simp

/-- Names as they are listed. -/
def nameList (names : List String) : List (Token Nat) := listed (names.map fun s => [.name s])

/-- Parameters as they are listed. -/
def parameterList (indices : List Nat) : List (Token Nat) :=
  listed (indices.map fun i => [.placeholder i])

/-- Names of incoming columns as they are listed. -/
def sourceList (names : List String) : List (Token Nat) :=
  listed (names.map fun s => [.name "S", .char '.', .name s])

theorem reading_columnList (columns : List String) :
    reading (columnList columns) = nameList columns := by
  rw [columnList, reading_listed, List.map_map]
  rfl

theorem reading_valueRows (rowCount columnCount : Nat) :
    reading (valueRows rowCount columnCount) =
      listed (((rowIndices rowCount columnCount).map parameterList).map
        fun g => .char '(' :: (g ++ [.char ')'])) := by
  rw [valueRows_eq, reading_listed, List.map_map, List.map_map]
  congr 1
  refine List.map_congr_left fun l _ => ?_
  simp [row, reading_listed, parameterList, Function.comp_def]

theorem flat_nameList (names : List String) : Flat (nameList names) := by
  refine Token.flat_listed ?_
  simp [Flat]

theorem flat_parameterList (indices : List Nat) : Flat (parameterList indices) := by
  refine Token.flat_listed ?_
  simp [Flat]

theorem flat_table (t : TableName) : Flat (reading (table t)) := by
  obtain ⟨n, q⟩ := t
  cases q <;> simp [table, Flat]

@[simp]
theorem groups_table (t : TableName) (y : List (Token Nat)) :
    groups none (reading (table t) ++ y) = groups none y :=
  Token.groups_none (flat_table t) y

@[simp]
theorem groups_columnList (columns : List String) (y : List (Token Nat)) :
    groups (some []) (reading (columnList columns) ++ .char ')' :: y) =
      nameList columns :: groups none y := by
  rw [reading_columnList, Token.groups_some (flat_nameList columns)]

/-- What is true of items and of the separator is true of all together, if it is kept when texts
are put together. -/
theorem reading_separated_of {P : List (Token Nat) → Prop} (hnil : P [])
    (happ : ∀ {x y}, P x → P y → P (x ++ y)) {sep : String} (hsep : P (reading [word sep]))
    {l : List (List Piece)} (hl : ∀ x ∈ l, P (reading x)) : P (reading (separated sep l)) := by
  cases l with
  | nil => exact hnil
  | cons x l =>
    obtain ⟨hx, ht⟩ := List.forall_mem_cons.1 hl
    rw [separated_cons, reading_append]
    refine happ hx ?_
    clear hl hx
    -- each further item comes after a separator
    induction l with
    | nil => exact hnil
    | cons y l ih =>
      obtain ⟨hy, hl⟩ := List.forall_mem_cons.1 ht
      have hitem := happ hsep (happ hy (ih hl))
      simpa using hitem

theorem flat_keyEqualities (keys : List String) :
    Flat (reading (separated " AND " (keys.map keyEquality))) := by
  refine reading_separated_of (List.forall_mem_nil _) (fun hx hy => Token.flat_append.2 ⟨hx, hy⟩)
    (by simp [Flat]) (List.forall_mem_map.2 fun k _ => ?_)
  simp [keyEquality, targetAlias, sourceAlias, Flat]

theorem groups_sourceColumns (columns : List String) (y : List (Token Nat)) :
    groups (some []) (reading (separated ", " (columns.map sourceColumn)) ++ .char ')' :: y) =
      sourceList columns :: groups none y := by
  have hlist : reading (separated ", " (columns.map sourceColumn)) = sourceList columns := by
    rw [reading_listed, List.map_map]
    rfl
  have hflat : Flat (sourceList columns) := by
    refine Token.flat_listed ?_
    simp [Flat]
  rw [hlist, Token.groups_some hflat]

@[simp]
theorem begins_isPlaceholder_nameList (names : List String) :
    begins isPlaceholder (nameList names) = false := by
  cases names <;> simp [nameList]

@[simp]
theorem begins_isPlaceholder_sourceList (names : List String) :
    begins isPlaceholder (sourceList names) = false := by
  cases names <;> simp [sourceList]

theorem begins_isName_nameList {names : List String} (h : names ≠ []) :
    begins isName (nameList names) := by
  cases names with
  | nil => exact absurd rfl h
  | cons s names => simp [nameList]

theorem begins_isName_sourceList {names : List String} (h : names ≠ []) :
    begins isName (sourceList names) := by
  cases names with
  | nil => exact absurd rfl h
  | cons s names => simp [sourceList]

section Rows
variable (rowCount : Nat) {columnCount : Nat} (h : columnCount ≠ 0)
include h

/-- A row of at least one value begins with its placeholder. -/
theorem begins_of_mem_rows (p : Token Nat → Bool) :
    ∀ g ∈ (rowIndices rowCount columnCount).map parameterList,
      ∃ i, begins p g = p (.placeholder i) := by
  refine List.forall_mem_map.2 fun l hl => ?_
  obtain ⟨r, -, rfl⟩ := List.mem_map.1 hl
  obtain ⟨k, rfl⟩ := Nat.exists_eq_succ_of_ne_zero h
  refine ⟨r * (k + 1), ?_⟩
  simp [parameterList, List.range_succ_eq_map]

theorem filter_isPlaceholder_rows :
    ((rowIndices rowCount columnCount).map parameterList).filter (begins isPlaceholder) =
      (rowIndices rowCount columnCount).map parameterList := by
  refine List.filter_eq_self.2 fun g hg => ?_
  obtain ⟨i, hi⟩ := begins_of_mem_rows rowCount h isPlaceholder g hg
  simp [hi]

theorem filter_isName_rows :
    ((rowIndices rowCount columnCount).map parameterList).filter (begins isName) = [] := by
  refine List.filter_eq_nil_iff.2 fun g hg => ?_
  obtain ⟨i, hi⟩ := begins_of_mem_rows rowCount h isName g hg
  simp [hi]

end Rows

theorem groups_valueRows {rowCount : Nat} (h : rowCount ≠ 0) (columnCount : Nat)
    (o : Option (List (Token Nat))) (y : List (Token Nat)) :
    groups o (reading (valueRows rowCount columnCount) ++ y) =
      (rowIndices rowCount columnCount).map parameterList ++ groups none y := by
  rw [reading_valueRows]
  refine Token.groups_listed ?_ ?_ o y
  · exact List.forall_mem_map.2 fun l _ => flat_parameterList l
  · simpa [rowIndices] using h

end Piece

namespace Spelling
open Piece
variable (sp : Spelling) {u : Upsert} (h : u.rowCount ≠ 0)
include h

theorem groups_onConflict :
    groups none (reading (sp.onConflict u)) =
      nameList u.columns :: ((rowIndices u.rowCount u.columns.length).map parameterList ++
        nameList u.keys :: groups none (reading (sp.assignmentList u.updates))) := by
  by_cases hu : u.updates = []
  · simp [onConflict, hu, targetAlias, groups, groups_valueRows h, assignmentList]
  · simp [onConflict, hu, targetAlias, groups, groups_valueRows h]

theorem groups_onDuplicateKey :
    groups none (reading (sp.onDuplicateKey u)) =
      nameList u.columns :: ((rowIndices u.rowCount u.columns.length).map parameterList ++
        groups none (reading (sp.assignmentList u.updates))) := by
  by_cases hu : u.updates = []
  · cases hk : u.keys.head? with
    | none =>
      have hrows := groups_valueRows h u.columns.length none []
      simpa [onDuplicateKey, hu, hk, groups, assignmentList] using hrows
    | some k => simp [onDuplicateKey, hu, hk, groups, groups_valueRows h, assignmentList]
  · simp [onDuplicateKey, hu, groups, groups_valueRows h]

/-- The locking hint stands in parentheses too. -/
theorem groups_merge :
    groups none (reading (sp.merge u)) =
      "HOLDLOCK".toList.map .char :: ((rowIndices u.rowCount u.columns.length).map parameterList ++
        nameList u.columns :: nameList u.columns :: sourceList u.columns ::
          groups none (reading (sp.assignmentList u.updates) ++ [.char ';'])) := by
  by_cases hu : u.updates = []
  · simp [merge, hu, targetAlias, sourceAlias, groups, groups_valueRows h, assignmentList,
      groups_sourceColumns, Token.groups_none (flat_keyEqualities u.keys)]
  · simp [merge, hu, targetAlias, sourceAlias, groups, groups_valueRows h,
      groups_sourceColumns, Token.groups_none (flat_keyEqualities u.keys)]

variable (hc : u.columns ≠ []) (has : Token.Rowless (reading (sp.assignmentList u.updates)))
include hc has

theorem rowLists_onConflict :
    Token.rowLists (reading (sp.onConflict u)) =
      (rowIndices u.rowCount u.columns.length).map parameterList := by
  rw [Token.rowLists, groups_onConflict sp h, List.filter_cons_of_neg (by simp),
    List.filter_append, filter_isPlaceholder_rows _ (mt List.length_eq_zero_iff.1 hc),
    List.filter_cons_of_neg (by simp)]
  exact List.append_right_eq_self.2 has.rowLists_eq_nil

theorem rowLists_onDuplicateKey :
    Token.rowLists (reading (sp.onDuplicateKey u)) =
      (rowIndices u.rowCount u.columns.length).map parameterList := by
  rw [Token.rowLists, groups_onDuplicateKey sp h, List.filter_cons_of_neg (by simp),
    List.filter_append, filter_isPlaceholder_rows _ (mt List.length_eq_zero_iff.1 hc)]
  exact List.append_right_eq_self.2 has.rowLists_eq_nil

theorem rowLists_merge :
    Token.rowLists (reading (sp.merge u)) =
      (rowIndices u.rowCount u.columns.length).map parameterList := by
  rw [Token.rowLists, groups_merge sp h, List.filter_cons_of_neg (by simp),
    List.filter_append, filter_isPlaceholder_rows _ (mt List.length_eq_zero_iff.1 hc),
    List.filter_cons_of_neg (by simp), List.filter_cons_of_neg (by simp),
    List.filter_cons_of_neg (by simp)]
  exact List.append_right_eq_self.2 (has [.char ';'])

omit has

theorem columnLists_onConflict :
    [nameList u.columns] <+: Token.columnLists (reading (sp.onConflict u)) := by
  rw [Token.columnLists, groups_onConflict sp h, List.filter_cons_of_pos (begins_isName_nameList hc)]
  exact List.prefix_append [_] _

theorem columnLists_onDuplicateKey :
    [nameList u.columns] <+: Token.columnLists (reading (sp.onDuplicateKey u)) := by
  rw [Token.columnLists, groups_onDuplicateKey sp h,
    List.filter_cons_of_pos (begins_isName_nameList hc)]
  exact List.prefix_append [_] _

theorem columnLists_merge :
    [nameList u.columns, nameList u.columns, sourceList u.columns] <+:
      Token.columnLists (reading (sp.merge u)) := by
  have hn := begins_isName_nameList hc
  rw [Token.columnLists, groups_merge sp h, List.filter_cons_of_neg (by simp),
    List.filter_append, filter_isName_rows _ (mt List.length_eq_zero_iff.1 hc), List.nil_append,
    List.filter_cons_of_pos hn, List.filter_cons_of_pos hn,
    List.filter_cons_of_pos (begins_isName_sourceList hc)]
  exact List.prefix_append [_, _, _] _

end Spelling

namespace Engine
open Piece Token
variable (e : Engine)

theorem rowless_operand (a : Operand Nat String) : Rowless (reading (e.renderer.operand a)) := by
  cases a with
  | constant i => exact Flat.rowless (by simp [Spelling.operand, Flat])
  | column c side =>
    cases side with
    | target =>
      refine Flat.rowless ?_
      cases e <;> simp [Spelling.operand, renderer, Dialect.postgres, Dialect.sqlite,
        Dialect.mysql, Dialect.sqlserver, Dialect.ofForm, targetAlias, Flat]
    | source =>
      cases e with
      | mysql =>
        intro y
        simp [Spelling.operand, renderer, Dialect.mysql, Dialect.ofForm, rowLists, groups]
      | _ =>
        refine Flat.rowless ?_
        simp [Spelling.operand, renderer, Dialect.postgres, Dialect.sqlite,
          Dialect.sqlserver, Dialect.ofForm, sourceAlias, Flat]

theorem rowless_formula (f : Formula (Operand Nat String)) :
    Rowless (reading (e.renderer.formula f)) := by
  cases f with
  | single a => exact e.rowless_operand a
  | arith op a b =>
    have hop : Flat ([' ', op.char, ' '].map (char : Char → Token Nat)) :=
      flat_chars (by cases op <;> simp [Arith.char])
    rw [Spelling.reading_arith]
    exact (e.rowless_operand a).append (hop.rowless.append (e.rowless_operand b))

theorem rowless_assignmentList (as : List BoundAssignment) :
    Rowless (reading (e.renderer.assignmentList as)) := by
  refine reading_separated_of (fun _ => rfl) Rowless.append (Flat.rowless (by simp [Flat]))
    (List.forall_mem_map.2 fun a _ => ?_)
  have hto : Flat (reading [Piece.name a.column, word " = "]) := by simp [Flat]
  simpa [Spelling.assignment] using hto.rowless.append (e.rowless_formula a.formula)

/-- The column lists of an insert. A merge names the columns of its rows, those it inserts into and
what it inserts there. -/
def insertLists : Engine → List String → List (List (Token Nat))
  | sqlserver, names => [nameList names, nameList names, sourceList names]
  | _, names => [nameList names]

variable {u : Upsert} (hr : u.rowCount ≠ 0) (hc : u.columns ≠ [])
include hr hc

theorem rowLists_pieces :
    rowLists (reading (e.pieces u)) =
      (rowIndices u.rowCount u.columns.length).map parameterList := by
  have has := e.rowless_assignmentList u.updates
  cases e with
  | postgres => exact Dialect.postgres.rowLists_onConflict hr hc has
  | sqlite => exact Dialect.sqlite.rowLists_onConflict hr hc has
  | mysql => exact Dialect.mysql.rowLists_onDuplicateKey hr hc has
  | sqlserver => exact Dialect.sqlserver.rowLists_merge hr hc has

theorem columnLists_pieces :
    e.insertLists u.columns <+: columnLists (reading (e.pieces u)) := by
  cases e with
  | postgres => exact Dialect.postgres.columnLists_onConflict hr hc
  | sqlite => exact Dialect.sqlite.columnLists_onConflict hr hc
  | mysql => exact Dialect.mysql.columnLists_onDuplicateKey hr hc
  | sqlserver => exact Dialect.sqlserver.columnLists_merge hr hc

end Engine

end UpsertSql
