import UpsertSql.Dialect.OnConflict
import UpsertSql.Proofs.Command

/-! What a dialect may rely on. It is handed rows, columns and a key, none of them empty, and no
update mentions a column that the row it is read from does not have, or a parameter of the rows. -/
namespace UpsertSql

namespace Operand
variable {κ κ' γ γ' : Type}

/-- Whatever column is read belongs to the row it is read from. -/
def Scoped (inserted declared : γ → Prop) : Operand κ γ → Prop
  | constant _ => True
  | column c .source => inserted c
  | column c .target => declared c

theorem scoped_map (f : κ → κ') (g : γ → γ') {inserted declared : γ' → Prop} (a : Operand κ γ) :
    (a.map f g).Scoped inserted declared ↔
      a.Scoped (fun c => inserted (g c)) fun c => declared (g c) := by
  cases a with
  | constant k => rfl
  | column c side => cases side <;> rfl

theorem Scoped.imp {P P' Q Q' : γ → Prop} {a : Operand κ γ} (h : a.Scoped P Q)
    (hP : ∀ c, P c → P' c) (hQ : ∀ c, Q c → Q' c) : a.Scoped P' Q' := by
  cases a with
  | constant k => trivial
  | column c side =>
    cases side with
    | source => exact hP c h
    | target => exact hQ c h

end Operand

theorem Formula.operands_map {α β : Type} (f : α → β) (e : Formula α) :
    (e.map f).operands = e.operands.map f := by
  cases e <;> rfl

/-- What is assigned is inserted too, and what is read can be read. -/
structure Assignment.Scoped {κ γ : Type} (inserted declared : γ → Prop) (a : Assignment κ γ) :
    Prop where
  assigned : inserted a.column
  operands : ∀ o ∈ a.formula.operands, o.Scoped inserted declared

namespace Assignment
variable {κ κ' γ γ' : Type}

theorem Scoped.imp {P P' Q Q' : γ → Prop} {a : Assignment κ γ} (h : a.Scoped P Q)
    (hP : ∀ c, P c → P' c) (hQ : ∀ c, Q c → Q' c) : a.Scoped P' Q' where
  assigned := hP _ h.assigned
  operands o ho := (h.operands o ho).imp hP hQ

theorem Scoped.fromSource {P Q : γ → Prop} {c : γ} (h : P c) :
    (fromSource c : Assignment κ γ).Scoped P Q where
  assigned := h
  operands := List.forall_mem_singleton.2 h

theorem scoped_map (f : κ → κ') (g : γ → γ') {inserted declared : γ' → Prop}
    (a : Assignment κ γ) :
    (a.map f g).Scoped inserted declared ↔
      a.Scoped (fun c => inserted (g c)) fun c => declared (g c) := by
  have ho : (∀ o ∈ (a.map f g).formula.operands, o.Scoped inserted declared) ↔
      ∀ o ∈ a.formula.operands,
        o.Scoped (fun c => inserted (g c)) fun c => declared (g c) := by
    simp only [map, Formula.operands_map, List.forall_mem_map, Operand.scoped_map]
  exact ⟨fun h => ⟨h.assigned, ho.1 h.operands⟩, fun h => ⟨h.assigned, ho.2 h.operands⟩⟩

/-- Binding leaves the columns of assignments where they are. -/
theorem scoped_of_recall {bs : List BoundAssignment} {as : List KnownAssignment} {ps : List Value}
    (h : bs.map (map (ps[·]?) id) = as.map (map some Column.name))
    {inserted declared : String → Prop}
    (ha : ∀ a ∈ as, a.Scoped (fun c => inserted c.name) fun c => declared c.name) :
    ∀ b ∈ bs, b.Scoped inserted declared := by
  have hm : ∀ x ∈ as.map (map some Column.name), x.Scoped inserted declared :=
    List.forall_mem_map.2 fun a h => (a.scoped_map some Column.name).2 (ha a h)
  rw [← h] at hm
  exact fun b hb => (b.scoped_map (ps[·]?) id).1 (List.forall_mem_map.1 hm b hb)

end Assignment

namespace Schema
variable {E : Type} {s : Schema E}

theorem Names.scoped {e : Expr} {a : Operand Value Column} (h : s.Names e a) :
    a.Scoped (· ∈ s.insertColumns) (· ∈ s.columns) := by
  cases h with
  | value v => trivial
  | @property side p c hc hs =>
    have hm := mem_columns_of_find? hc
    cases side with
    | source => exact mem_insertColumns.2 ⟨hm, hs rfl⟩
    | target => exact hm

theorem Shapes.scoped {e : Expr} {f : Formula (Operand Value Column)} (h : s.Shapes e f) :
    ∀ o ∈ f.operands, o.Scoped (· ∈ s.insertColumns) (· ∈ s.columns) := by
  cases h with
  | single ha => simpa [Formula.operands] using ha.scoped
  | arith op ha hb => simpa [Formula.operands] using ⟨ha.scoped, hb.scoped⟩

theorem Sets.scoped {property : String × Expr} {a : KnownAssignment} (h : s.Sets property a) :
    a.Scoped (· ∈ s.insertColumns) (· ∈ s.columns) where
  assigned := mem_insertColumns.2 ⟨mem_columns_of_find? h.find, h.stored⟩
  operands := h.shapes.scoped

theorem analyze_scoped {keys : List Column} {policy : Policy} {as : List KnownAssignment}
    (h : s.analyze keys policy = .ok as) :
    ∀ a ∈ as, a.Scoped (· ∈ s.insertColumns) (· ∈ s.columns) := by
  intro a ha
  cases policy with
  | updateAll =>
    cases h
    obtain ⟨c, hc, rfl⟩ := List.mem_map.1 ha
    have hm : c ∈ s.insertColumns := List.mem_of_mem_filter hc
    exact .fromSource hm
  | update spec =>
    obtain ⟨pe, -, hs⟩ := exists_of_forall₂ (analyze_update_eq_ok.1 h).2.1 ha
    exact hs.scoped
  | doNothing =>
    cases h
    cases ha

end Schema

/-- The upsert can be written down for the schema without a second look at it. -/
structure Upsert.WellScoped {E : Type} (u : Upsert) (s : Schema E) (parameters : List Value) :
    Prop where
  rows : 1 ≤ u.rowCount
  columns : u.columns ≠ []
  keys : u.keys ≠ []
  keys_inserted : ∀ k ∈ u.keys, k ∈ u.columns
  updates : ∀ a ∈ u.updates, a.Scoped (· ∈ u.columns) (· ∈ s.columns.map (·.name))
  numbers : ∀ a ∈ u.updates, ∀ i ∈ a.constants,
    u.rowCount * u.columns.length ≤ i ∧ i < parameters.length

namespace Request
variable {E : Type} {r : Request E} {u : Upsert} {parameters : List Value}

theorem wellScoped_of_bind (h : r.bind = .ok (u, parameters)) :
    u.WellScoped r.schema parameters := by
  obtain ⟨p, hp, hr, rfl, rfl⟩ := bind_eq_ok.1 h
  obtain ⟨hk, ha⟩ := plan_eq_ok.1 hp
  have hin (k : String) (h : k ∈ p.keys.map (·.name)) :
      k ∈ r.schema.insertColumns.map (·.name) := by
    obtain ⟨c, hc, rfl⟩ := List.mem_map.1 h
    exact List.mem_map_of_mem (Schema.insertColumns_of_resolveKeys hk hc)
  have hne : p.keys.map (·.name) ≠ [] := by
    simpa using Schema.ne_nil_of_resolveKeys hk
  constructor
  case rows => exact List.length_pos_of_ne_nil hr
  case columns =>
    obtain ⟨k, hk⟩ := List.exists_mem_of_ne_nil _ hne
    exact List.ne_nil_of_mem (hin k hk)
  case keys => exact hne
  case keys_inserted => exact hin
  case updates =>
    refine Assignment.scoped_of_recall
      (numberAssignments_recall _ _ (r.schema.constants_standing r.rows p.assignments)) ?_
    exact fun a h => (Schema.analyze_scoped ha a h).imp (fun _ => List.mem_map_of_mem)
      fun _ => List.mem_map_of_mem
  case numbers =>
    intro a h i hi
    have hm : i ∈ (numberAssignments r.rowParameters p.assignments).2.flatMap
        Assignment.constants := List.mem_flatMap.2 ⟨a, h, hi⟩
    rw [numberAssignments_constants, List.mem_range'_1] at hm
    simpa [upsert, r.schema.length_parameters, rowParameters] using hm

end Request

/-- Whatever the dialect, it is handed nothing but upserts that are well scoped. -/
theorem compile_well_scoped {E : Type} {d : Dialect} {r : Request E} {command : Command}
    (h : d.compile r = .ok command) :
    ∃ u, r.bind = .ok (u, command.parameters) ∧ command.sql = d.statement u ∧
      u.WellScoped r.schema command.parameters := by
  obtain ⟨u, hb, hs⟩ := Dialect.compile_eq_ok.1 h
  exact ⟨u, hb, hs, Request.wellScoped_of_bind hb⟩

/-- The existing row is asked for what the database has made up; the incoming row could not be. -/
def Request.hitsById : Request (String × Int64) :=
  { Request.hits with policy := .update ⟨[("count", .target "id" - .value (.int 1))]⟩ }

theorem compile_well_scoped_hits :
    ∃ command, Dialect.sqlite.compile .hitsById = .ok command ∧
      ∃ u, Request.hitsById.bind = .ok (u, command.parameters) ∧
        command.sql = Dialect.sqlite.statement u ∧
        u.WellScoped Request.hitsById.schema command.parameters :=
  ⟨_, rfl, compile_well_scoped rfl⟩

end UpsertSql
