import UpsertSql.Dialect.OnConflict
import UpsertSql.Proofs.Command
import UpsertSql.Proofs.Schema.Building

/-! Schemas that go on where others end. What is declared later never answers for a property that
was declared before, under whatever name it is kept, so it takes nothing from what was accepted. A
column that the database makes up is not inserted either, and then a request can only gain by it. -/
namespace UpsertSql
variable {E : Type}

/-- The second computation ends as the first one does, unless that one misses a column. -/
inductive Settled {α : Type} : Except Failure α → Except Failure α → Prop
  | same (x : Except Failure α) : Settled x x
  | missing (entity property : String) (y : Except Failure α) :
    Settled (.error (.unknownColumn entity property)) y

namespace Settled
variable {α β : Type} {x y : Except Failure α}

theorem eq_or (h : Settled x y) :
    y = x ∨ ∃ entity property, x = .error (.unknownColumn entity property) := by
  cases h with
  | same => exact .inl rfl
  | missing entity property => exact .inr ⟨entity, property, rfl⟩

/-- A result is kept. -/
theorem ok {a : α} (h : Settled x y) (hx : x = .ok a) : y = .ok a := by
  cases h with
  | same => exact hx
  | missing => cases hx

theorem bind {f g : α → Except Failure β} (h : Settled x y)
    (hf : ∀ a, x = .ok a → Settled (f a) (g a)) : Settled (x >>= f) (y >>= g) := by
  cases h with
  | same =>
    cases x with
    | error e => exact .same (.error e)
    | ok a => exact hf a rfl
  | missing entity property => exact .missing entity property _

/-- What is done with a result does not change. -/
theorem andThen (h : Settled x y) (f : α → Except Failure β) : Settled (x >>= f) (y >>= f) :=
  h.bind fun a _ => .same (f a)

theorem mapM {κ : Type} {f g : κ → Except Failure α} (h : ∀ k, Settled (f k) (g k)) (l : List κ) :
    Settled (l.mapM f) (l.mapM g) := by
  induction l with
  | nil => exact .same _
  | cons k l ih =>
    rw [List.mapM_cons, List.mapM_cons]
    exact (h k).bind fun a _ => ih.andThen _

end Settled

namespace Schema

/-- The later schema goes by the same name, and what is found in the earlier one is found in it. -/
structure Extends (later earlier : Schema E) : Prop where
  name : later.entityName = earlier.entityName
  find : ∀ p c, earlier.find? p = some c → later.find? p = some c

namespace Extends
variable {r s t : Schema E}

theorem refl (s : Schema E) : s.Extends s := ⟨rfl, fun _ _ h => h⟩

theorem trans (h : t.Extends s) (h' : s.Extends r) : t.Extends r where
  name := h.name.trans h'.name
  find p c hc := h.find p c (h'.find p c hc)

variable (h : t.Extends s)
include h

theorem resolve (p : String) : Settled (s.resolve p) (t.resolve p) := by
  unfold Schema.resolve
  cases hp : s.find? p with
  | none => exact .missing _ _ _
  | some c =>
    rw [h.find p c hp]
    exact .same _

theorem resolveKey (p : String) : Settled (s.resolveKey p) (t.resolveKey p) := by
  unfold Schema.resolveKey
  rw [h.name]
  exact (h.resolve p).andThen _

theorem resolveKeys (ps : List String) : Settled (s.resolveKeys ps) (t.resolveKeys ps) := by
  unfold Schema.resolveKeys
  rw [h.name]
  by_cases hp : ps.isEmpty
  · rw [if_pos hp, if_pos hp]
    exact .same _
  · rw [if_neg hp, if_neg hp]
    exact (Settled.mapM h.resolveKey ps).andThen _

theorem operand (e : Expr) : Settled (s.operand e) (t.operand e) := by
  cases e with
  | property side p => exact (h.resolve p).andThen _
  | _ => exact .same _

theorem formula (e : Expr) : Settled (s.formula e) (t.formula e) := by
  cases e with
  | value v => exact .same _
  | property side p => exact (h.operand (.property side p)).andThen _
  | binary op l r =>
    cases op with
    | arith op => exact (h.operand l).bind fun a _ => (h.operand r).andThen _
    | _ => exact .same _
  | call f as => exact .same _

theorem resolveAssigned (taken : List Column) (p : String) :
    Settled (s.resolveAssigned taken p) (t.resolveAssigned taken p) :=
  (h.resolve p).andThen _

theorem explicitAssignments (taken : List Column) (l : List (String × Expr)) :
    Settled (s.explicitAssignments taken l) (t.explicitAssignments taken l) := by
  induction l generalizing taken with
  | nil => exact .same _
  | cons pe l ih =>
    obtain ⟨p, e⟩ := pe
    apply (h.resolveAssigned taken p).bind
    intro c _
    apply (h.formula e).bind
    intro f _
    exact (ih (c :: taken)).andThen _

/-- A specification says itself what is assigned, so new columns do not come into it. -/
theorem analyze_update (keys : List Column) (spec : UpdateSpec) :
    Settled (s.analyze keys (.update spec)) (t.analyze keys (.update spec)) := by
  unfold Schema.analyze
  by_cases hs : spec.isEmpty
  · simp only [hs, if_true]
    exact .same _
  · simp only [hs]
    exact h.explicitAssignments [] spec.assignments

end Extends

theorem extends_add (s : Schema E) (f : Field E) : (s.add f).Extends s where
  name := rfl
  find p c hc := by
    unfold find? columns at hc ⊢
    rw [add, List.map_append, List.find?_append, hc, Option.some_or]

/-- One call: a column comes last, and neither the namespace nor a copy is looked at. -/
theorem extends_apply (s : Schema E) (d : Declaration E) : (d.apply s).Extends s := by
  cases d with
  | stored property read => exact s.extends_add _
  | storedAs property name read => exact s.extends_add _
  | generated property => exact s.extends_add _
  | generatedAs property name => exact s.extends_add _
  | inNamespace qualifier => exact ⟨rfl, fun _ _ hc => hc⟩
  | copy =>
    rw [Declaration.apply, copy_eq]
    exact .refl s

theorem extends_foldl (s : Schema E) (ds : List (Declaration E)) :
    (ds.foldl Declaration.apply s).Extends s := by
  induction ds generalizing s with
  | nil => exact .refl s
  | cons d ds ih => exact (ih (d.apply s)).trans (s.extends_apply d)

/-- Rows go into the same columns of the same table and are read in the same way. -/
structure InsertsLike (later earlier : Schema E) : Prop where
  table : later.table = earlier.table
  columns : later.insertColumns = earlier.insertColumns
  readers : later.readers = earlier.readers

theorem InsertsLike.trans {r s t : Schema E} (h : t.InsertsLike s) (h' : s.InsertsLike r) :
    t.InsertsLike r :=
  ⟨h.table.trans h'.table, h.columns.trans h'.columns, h.readers.trans h'.readers⟩

theorem insertsLike_generatedAs (s : Schema E) (property name : String) :
    (s.generatedAs property name).InsertsLike s where
  table := rfl
  columns := by simp [insertColumns, Schema.columns, generatedAs, add, Field.column, Origin.read?]
  readers := by simp [Schema.readers, generatedAs, add, Origin.read?]

end Schema

/-- The call leaves the table and what is inserted into it: it declares a column that the database
makes up, or goes on with a copy. -/
def Declaration.StoresNothing : Declaration E → Prop
  | generated _ => True
  | generatedAs _ _ => True
  | copy => True
  | _ => False

namespace Schema

theorem insertsLike_apply {d : Declaration E} (h : d.StoresNothing) (s : Schema E) :
    (d.apply s).InsertsLike s := by
  cases d with
  | generated property => exact s.insertsLike_generatedAs property property
  | generatedAs property name => exact s.insertsLike_generatedAs property name
  | copy =>
    rw [Declaration.apply, copy_eq]
    exact ⟨rfl, rfl, rfl⟩
  | _ => cases h

theorem insertsLike_foldl {ds : List (Declaration E)} (h : ∀ d ∈ ds, d.StoresNothing)
    (s : Schema E) : (ds.foldl Declaration.apply s).InsertsLike s := by
  induction ds generalizing s with
  | nil => exact ⟨rfl, rfl, rfl⟩
  | cons d ds ih =>
    obtain ⟨hd, hds⟩ := List.forall_mem_cons.1 h
    exact (ih hds (d.apply s)).trans (insertsLike_apply hd s)

namespace InsertsLike
variable {s t : Schema E} (h : t.InsertsLike s)
include h

theorem defaultAssignments (keys : List Column) :
    t.defaultAssignments keys = s.defaultAssignments keys := by
  rw [Schema.defaultAssignments, Schema.defaultAssignments, h.columns]

theorem bind (rows : List E) (as : List KnownAssignment) : t.bind rows as = s.bind rows as := by
  have hr : t.rowOf = s.rowOf := by
    funext e
    rw [rowOf, rowOf, h.readers]
  rw [Schema.bind, Schema.bind, parameters, parameters, hr]

theorem upsert (rows : List E) (keys : List String) (policy : Policy) :
    Request.upsert ⟨t, rows, keys, policy⟩ = Request.upsert ⟨s, rows, keys, policy⟩ := by
  funext p updates
  simp only [Request.upsert, h.table, h.columns]

end InsertsLike
end Schema

section Requests
variable {s t : Schema E} (h : t.Extends s) (hi : t.InsertsLike s)
include h hi

theorem Schema.Extends.analyze (keys : List Column) (policy : Policy) :
    Settled (s.analyze keys policy) (t.analyze keys policy) := by
  cases policy with
  | updateAll =>
    rw [Schema.analyze, Schema.analyze, hi.defaultAssignments]
    exact .same _
  | update spec => exact h.analyze_update keys spec
  | doNothing => exact .same _

variable (rows : List E) (keys : List String) (policy : Policy)

theorem Schema.Extends.plan :
    Settled (Request.plan ⟨s, rows, keys, policy⟩) (Request.plan ⟨t, rows, keys, policy⟩) := by
  apply (h.resolveKeys keys).bind
  intro ks _
  exact (h.analyze hi ks policy).andThen _

/-- After the plan only what is inserted matters. -/
theorem Schema.Extends.compile (d : Dialect) :
    Settled (d.compile ⟨s, rows, keys, policy⟩) (d.compile ⟨t, rows, keys, policy⟩) := by
  have hb : Settled (Request.bind ⟨s, rows, keys, policy⟩) (Request.bind ⟨t, rows, keys, policy⟩) := by
    unfold Request.bind
    simp only [hi.bind, hi.upsert]
    exact (h.plan hi rows keys policy).andThen _
  exact hb.andThen _

end Requests

/-- Whatever calls are made on a schema, what was found is found, what was a key is one, and what a
specification stood for it stands for. If the columns declared are all made up by the database, every
request ends as it did before, unless that was for want of a column. -/
theorem extension_conservative (s : Schema E) (ds : List (Declaration E)) :
    (∀ p c, s.resolve p = .ok c → (ds.foldl Declaration.apply s).resolve p = .ok c) ∧
    (∀ ps cs, s.resolveKeys ps = .ok cs →
      (ds.foldl Declaration.apply s).resolveKeys ps = .ok cs) ∧
    (∀ keys spec as, s.analyze keys (.update spec) = .ok as →
      (ds.foldl Declaration.apply s).analyze keys (.update spec) = .ok as) ∧
    ((∀ d ∈ ds, d.StoresNothing) → ∀ (d : Dialect) rows keys policy,
      d.compile ⟨ds.foldl Declaration.apply s, rows, keys, policy⟩ =
          d.compile ⟨s, rows, keys, policy⟩ ∨
        ∃ entity property,
          d.compile ⟨s, rows, keys, policy⟩ = .error (.unknownColumn entity property)) := by
  have h := s.extends_foldl ds
  refine ⟨?_, ?_, ?_, ?_⟩
  · intro p c hc
    exact (h.resolve p).ok hc
  · intro ps cs hcs
    exact (h.resolveKeys ps).ok hcs
  · intro keys spec as has
    exact (h.analyze_update keys spec).ok has
  · intro hd d rows keys policy
    exact (h.compile (Schema.insertsLike_foldl hd s) rows keys policy d).eq_or

/-- Counts are declared once more, as made up by the database, and days under the name of pages. -/
def Declaration.latecomers : List (Declaration (String × Int64)) :=
  [.generated "count", .copy, .generatedAs "day" "page"]

theorem extension_conservative_hits :
    (∀ d ∈ Declaration.latecomers, d.StoresNothing) ∧
    (Declaration.latecomers.foldl Declaration.apply Request.hits.schema).resolve "count" =
      .ok ⟨"count", "n\"$1", false⟩ ∧
    ∃ command, Dialect.postgres.compile .hits = .ok command ∧
      Dialect.postgres.compile { Request.hits with
        schema := Declaration.latecomers.foldl Declaration.apply Request.hits.schema } =
          .ok command := by
  obtain ⟨hresolve, -, -, hcompile⟩ :=
    extension_conservative Request.hits.schema Declaration.latecomers
  have hd : ∀ d ∈ Declaration.latecomers, d.StoresNothing := by
    simp [Declaration.latecomers, Declaration.StoresNothing]
  refine ⟨hd, hresolve _ _ rfl, _, rfl, ?_⟩
  rcases hcompile hd .postgres Request.hits.rows Request.hits.keys Request.hits.policy with h | h
  · exact h
  · obtain ⟨entity, property, h⟩ := h
    cases h

end UpsertSql
