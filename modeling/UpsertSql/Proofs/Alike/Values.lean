import UpsertSql.Dialect.OnConflict
import UpsertSql.Proofs.Alike.Command

/-! No value ever shows in a statement: requests that differ in their readers, in what their rows
hold and in the literals of their policies are compiled to the same text by every dialect, or are
refused with the same message. -/
namespace UpsertSql
open List (Forall₂)
open Relator (BiUnique)

theorem biUnique_eq {α : Type} : BiUnique (Eq : α → α → Prop) :=
  ⟨fun _ _ _ h h' => h.trans h'.symm, fun _ _ _ h h' => h.symm.trans h'⟩

theorem forall₂_of_length_eq {α β : Type} {R : α → β → Prop} (hR : ∀ a b, R a b) {l : List α}
    {l' : List β} (h : l.length = l'.length) : Forall₂ R l l' :=
  List.forall₂_iff_get.2 ⟨h, fun _ _ _ => hR _ _⟩

theorem TableName.Alike.eq {t u : TableName} (h : TableName.Alike Eq t u) : t = u := by
  obtain ⟨n, q⟩ := t
  obtain ⟨n', q'⟩ := u
  obtain ⟨hn, hq⟩ := h
  cases hq with
  | some hq => simp_all
  | none => simp_all

theorem Failure.Alike.eq {f g : Failure} (h : Failure.Alike Eq Eq f g) : f = g := by
  cases h <;> simp_all

section
variable {κ γ : Type}

theorem Operand.Alike.eq {a b : Operand κ γ} (h : Operand.Alike Eq Eq a b) : a = b := by
  cases h <;> simp_all

theorem Formula.Alike.eq {e f : Formula (Operand κ γ)}
    (h : Formula.Alike (Operand.Alike Eq Eq) e f) : e = f := by
  cases h with
  | single ha => rw [ha.eq]
  | arith op ha hb => rw [ha.eq, hb.eq]

theorem Assignment.Alike.eq {a b : Assignment κ γ} (h : Assignment.Alike Eq Eq a b) : a = b := by
  obtain ⟨c, e⟩ := a
  obtain ⟨d, f⟩ := b
  have hc : c = d := h.column
  have he : e = f := h.formula.eq
  rw [hc, he]

end

theorem Upsert.Alike.eq {u v : Upsert} (h : u.Alike Eq Eq v) : u = v := by
  obtain ⟨t, n, cs, ks, as⟩ := u
  obtain ⟨t', n', ds, ls, bs⟩ := v
  have ht : t = t' := h.table.eq
  have hn : n = n' := h.rowCount
  have hcs : cs = ds := List.forall₂_eq_eq_eq ▸ h.columns
  have hks : ks = ls := List.forall₂_eq_eq_eq ▸ h.keys
  have has : Forall₂ Eq as bs := h.updates.imp fun _ _ hab => hab.eq
  rw [List.forall₂_eq_eq_eq] at has
  rw [ht, hn, hcs, hks, has]

/-- The requests differ in values alone: in what the readers give, in the rows, which are of the same
number, and in the literals of the policies, at whatever depth. -/
structure Request.SameButValues {E E' : Type} (r : Request E) (q : Request E') : Prop where
  table : r.schema.table = q.schema.table
  columns : r.schema.columns = q.schema.columns
  rows : r.rows.length = q.rows.length
  keys : r.keys = q.keys
  policy : r.policy.Alike (fun _ _ => True) q.policy

variable {E E' : Type}

theorem Request.SameButValues.alike {r : Request E} {q : Request E'} (h : r.SameButValues q) :
    r.Alike Eq Eq (fun _ _ => True) q where
  schema := {
    table := {
      name := congrArg TableName.name h.table
      qualifier := by
        rw [h.table]
        cases q.schema.table.qualifier with
        | none => exact .none
        | some s => exact .some rfl }
    columns := by
      rw [h.columns]
      exact List.forall₂_same.2 fun c _ => ⟨rfl, rfl, rfl⟩ }
  rows := by
    refine forall₂_of_length_eq (fun a b => forall₂_of_length_eq (fun _ _ => trivial) ?_) h.rows
    rw [Schema.length_rowOf, Schema.length_rowOf, Schema.insertColumns, Schema.insertColumns,
      h.columns]
  keys := h.keys
  policy := h.policy

/-- What a dialect writes and how many parameters it asks for, or why it refuses, is settled without
the values. -/
theorem compile_ignores_values (d : Dialect) {r : Request E} {q : Request E'}
    (h : r.SameButValues q) :
    Agree Eq (fun c c' => c.sql = c'.sql ∧ c.parameters.length = c'.parameters.length)
      (d.compile r) (d.compile q) := by
  have hb := (h.alike.bind biUnique_eq).imp (fun _ _ hf => hf.eq) fun _ _ hu => hu
  refine hb.bind fun a b hab => .ok ⟨?_, hab.2.length_eq⟩
  rw [hab.1.eq]

/-- Hits of pages that are known by their text alone. -/
def Request.views : Request String where
  schema := (((Schema.ofTable "hits").stored "page" .text).storedAs
    "count" "n\"$1" fun _ => .null).generated "id"
  rows := ["a'; --", "$3"]
  keys := ["page", "page"]
  policy := .update (((UpdateSpec.mk []).set "count" (.target "count" + .source "count")).set
    "page" (.value (.bool true) + .source "page"))

theorem compile_ignores_values_hits :
    Request.hits.SameButValues .views ∧
      ∃ c c', Dialect.postgres.compile .hits = .ok c ∧ Dialect.postgres.compile .views = .ok c' ∧
        c.sql = c'.sql ∧ c.parameters.length = c'.parameters.length := by
  have hs : Request.hits.SameButValues .views := by
    refine ⟨rfl, rfl, rfl, rfl, .update (.cons ⟨rfl, ?_⟩ (.cons ⟨rfl, ?_⟩ .nil))⟩
    · exact .binary _ (.property _ _) (.property _ _)
    · exact .binary _ (.value trivial) (.property _ _)
  obtain ⟨c, hc⟩ : ∃ c, Dialect.postgres.compile .hits = .ok c := ⟨_, rfl⟩
  obtain ⟨c', hc'⟩ : ∃ c', Dialect.postgres.compile .views = .ok c' := ⟨_, rfl⟩
  have h := compile_ignores_values .postgres hs
  rw [hc, hc'] at h
  cases h with
  | ok h => exact ⟨hs, c, c', hc, hc', h⟩

end UpsertSql
