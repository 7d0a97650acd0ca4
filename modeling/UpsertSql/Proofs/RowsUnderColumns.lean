import UpsertSql.Proofs.Dialect.Placeholders
import UpsertSql.Proofs.Dialect.Rows
import UpsertSql.Proofs.Scope

/-! Every value of a row stands under the column it was read for. The three that have a say in it,
the names, the readers and the numbers of the parameters, are each found in their own way. -/
namespace UpsertSql
open Piece Token

theorem Schema.map_rowIndices {E : Type} (s : Schema E) (rows : List E)
    (as : List KnownAssignment) :
    (rowIndices rows.length s.insertColumns.length).map
        (·.map fun i => (s.parameters rows as)[i]?) =
      rows.map fun e => (s.rowOf e).map some := by
  refine List.ext_getElem (by simp [rowIndices]) fun i hi _ => ?_
  have hrow : i < rows.length := by simpa [rowIndices] using hi
  simp only [rowIndices, List.map_map, List.getElem_map, List.getElem_range, Function.comp_apply]
  refine List.ext_getElem (by simp [s.length_rowOf]) fun j hj _ => ?_
  have hcol : j < s.insertColumns.length := by simpa using hj
  simp only [List.getElem_map, List.getElem_range, Function.comp_apply]
  have hcell := s.parameters_getElem? as (List.getElem?_eq_getElem hrow) hcol
  rw [hcell]
  exact List.getElem?_eq_getElem _

/-- What an engine reads in a command, its placeholders by the numbers of their parameters. Where
they are written without numbers, their order decides. -/
structure Engine.ReadsAs (e : Engine) (command : Command) (ts : List (Token Nat)) : Prop where
  spelled : e.read command.sql = some (ts.map (.map e.renderer.placeholder))
  counted : ts.filterMap placeholder? = List.range command.parameters.length

/-- The command has a list of the names of the cells, and a list of parameters for each row that
gives in the same order what the cells read there. There are no other rows. -/
structure Engine.Tabulates (e : Engine) {E : Type} (command : Command) (cells : List (Cell E))
    (rows : List E) (ts : List (Token Nat)) (grid : List (List Nat)) : Prop where
  reads : e.ReadsAs command ts
  names : e.insertLists (cells.map (·.name)) <+: columnLists ts
  places : rowLists ts = grid.map parameterList
  values : grid.map (·.map fun i => command.parameters[i]?) =
    rows.map fun row => cells.map fun c => some (c.read row)

namespace Request
variable {E : Type} {r : Request E} {u : Upsert} {command : Command}

theorem columns_of_bind {parameters : List Value} (h : r.bind = .ok (u, parameters)) :
    u.columns = r.schema.insertColumns.map (·.name) := by
  obtain ⟨p, -, -, rfl, -⟩ := bind_eq_ok.1 h
  rfl

theorem readsAs_of_bind (h : r.bind = .ok (u, command.parameters)) {e : Engine}
    (hs : command.sql = e.renderer.statement u) : e.ReadsAs command (reading (e.pieces u)) where
  spelled := by rw [hs, e.read_statement]
  counted := by
    rw [placeholders_reading, e.indices_of_consecutive (consecutive_of_bind h),
      rowParameters_of_bind h, constants_of_bind h, List.length_range', length_parameters h]

theorem tabulates_of_bind (h : r.bind = .ok (u, command.parameters)) {e : Engine}
    (hs : command.sql = e.renderer.statement u) :
    e.Tabulates command r.schema.cells r.rows (reading (e.pieces u))
      (rowIndices u.rowCount u.columns.length) := by
  have hw := wellScoped_of_bind h
  have hread := readsAs_of_bind h hs
  have hrows : u.rowCount ≠ 0 := Nat.one_le_iff_ne_zero.1 hw.rows
  have hcols : u.columns = r.schema.cells.map (·.name) := by
    rw [r.schema.map_name_cells]
    exact columns_of_bind h
  constructor
  case reads => exact hread
  case names =>
    rw [← hcols]
    exact e.columnLists_pieces hrows hw.columns
  case places => exact e.rowLists_pieces hrows hw.columns
  case values =>
    obtain ⟨p, -, -, rfl, hp⟩ := bind_eq_ok.1 h
    rw [hp]
    simp only [upsert, List.length_map]
    rw [r.schema.map_rowIndices]
    refine List.map_congr_left fun row _ => ?_
    rw [r.schema.rowOf_eq_cells, List.map_map]
    rfl

end Request

/-- Three of the columns share a name, and one of these is not stored. -/
def visitCalls : List (Declaration (String × Int64)) :=
  [.stored "page" fun e => .text e.1, .generatedAs "id" "page", .copy,
    .storedAs "hits" "page" fun e => .int e.2, .inNamespace "log", .stored "n" fun e => .int e.2]

end UpsertSql
