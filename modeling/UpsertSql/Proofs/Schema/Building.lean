import UpsertSql.Schema.Building

/-! Names and readers of a schema stay together: however it was built, the two are those of the
calls that declared stored columns, in the order of these calls. -/
namespace UpsertSql
variable {E : Type}

theorem Field.copy_eq (f : Field E) : f.copy = f := by
  obtain ⟨property, name, origin⟩ := f
  cases origin <;> rfl

namespace Schema

theorem copy_eq (s : Schema E) : s.copy = s := by
  have h : Field.copy = (id : Field E → Field E) := funext Field.copy_eq
  rw [copy, h, List.map_id]

/-- The names and readers of the stored columns. -/
def cells (s : Schema E) : List (Cell E) :=
  s.fields.filterMap fun f => f.origin.read?.map (Cell.mk f.name)

theorem map_name_cells (s : Schema E) : s.cells.map (·.name) = s.insertColumns.map (·.name) := by
  unfold cells insertColumns columns
  induction s.fields with
  | nil => rfl
  | cons f fs ih =>
    cases h : f.origin.read? with
    | none => simpa [Field.column, h] using ih
    | some read => simpa [Field.column, h] using ih

theorem readers_eq_cells (s : Schema E) : s.readers = s.cells.map (·.read) := by
  rw [readers, cells, List.map_filterMap]
  congr 1
  funext f
  cases f.origin <;> rfl

theorem rowOf_eq_cells (s : Schema E) (e : E) : s.rowOf e = s.cells.map (·.read e) := by
  rw [rowOf, readers_eq_cells, List.map_map]
  rfl

/-- There is a reader for each column that is inserted. -/
theorem length_readers (s : Schema E) : s.readers.length = s.insertColumns.length := by
  have hnames := congrArg List.length s.map_name_cells
  rw [List.length_map, List.length_map] at hnames
  rw [readers_eq_cells, List.length_map, hnames]

theorem cells_add (s : Schema E) (f : Field E) :
    (s.add f).cells = s.cells ++ (f.origin.read?.map (Cell.mk f.name)).toList := by
  simp only [cells, add, List.filterMap_append, List.filterMap_cons, List.filterMap_nil]
  cases f.origin.read? <;> rfl

/-- One call: the cell of a stored column comes last, no other is touched. -/
theorem cells_apply (s : Schema E) (d : Declaration E) :
    (d.apply s).cells = s.cells ++ d.cell?.toList := by
  cases d with
  | stored property read => exact s.cells_add _
  | storedAs property name read => exact s.cells_add _
  | generated property => exact s.cells_add _
  | generatedAs property name => exact s.cells_add _
  | inNamespace qualifier => exact (List.append_nil s.cells).symm
  | copy => rw [Declaration.apply, copy_eq]; exact (List.append_nil s.cells).symm

theorem cells_foldl (s : Schema E) (ds : List (Declaration E)) :
    (ds.foldl Declaration.apply s).cells = s.cells ++ ds.filterMap Declaration.cell? := by
  induction ds generalizing s with
  | nil => exact (List.append_nil s.cells).symm
  | cons d ds ih =>
    rw [List.foldl_cons, ih, cells_apply, List.append_assoc, List.filterMap_cons]
    cases d.cell? <;> rfl

/-- Any sequence of calls. -/
theorem cells_build (table : String) (ds : List (Declaration E)) :
    (build table ds).cells = ds.filterMap Declaration.cell? :=
  cells_foldl (.ofTable table) ds

end Schema
end UpsertSql
