import Mathlib.Data.List.Forall2
import UpsertSql.Assignment.Analysis
import UpsertSql.Proofs.Schema.Lookup

/-! What analysis accepts, said without saying how it goes about it, and that it accepts nothing
else. -/
namespace UpsertSql.Schema
variable {E : Type} (s : Schema E)

/-- The expression is a value or a property that can be read, and the operand is what it names. -/
inductive Names : Expr → Operand Value Column → Prop
  | value (v : Value) : Names (.value v) (.constant v)
  | property {side : Side} {p : String} {c : Column} (find : s.find? p = some c)
      (stored : side = .source → c.generated = false) : Names (.property side p) (.column c side)

/-- The formula has the operands of the expression in their places. -/
inductive Shapes : Expr → Formula (Operand Value Column) → Prop
  | single {e : Expr} {a : Operand Value Column} (h : s.Names e a) : Shapes e (.single a)
  | arith (op : Arith) {l r : Expr} {a b : Operand Value Column} (left : s.Names l a)
      (right : s.Names r b) : Shapes (.binary (.arith op) l r) (.arith op a b)

/-- The assignment sets the column of the property to the expression. -/
structure Sets (property : String × Expr) (a : KnownAssignment) : Prop where
  find : s.find? property.1 = some a.column
  stored : a.column.generated = false
  shapes : s.Shapes property.2 a.formula

variable {s}

theorem readProperty_eq_ok {side : Side} {p : String} {a : Operand Value Column} :
    s.readProperty side p = .ok a ↔ s.Names (.property side p) a := by
  simp only [readProperty, bind_ok_iff, resolve_eq_ok]
  constructor
  · intro h
    obtain ⟨c, hc, h⟩ := h
    split at h
    · cases h
    · next hs =>
      cases h
      exact .property hc fun hside => by simpa [hside] using hs
  · intro h
    cases h with
    | property hc hs =>
      refine ⟨_, hc, if_neg ?_⟩
      intro h
      simp [hs h.1] at h

theorem operand_eq_ok {e : Expr} {a : Operand Value Column} :
    s.operand e = .ok a ↔ s.Names e a := by
  cases e with
  | value v =>
    constructor
    · intro h
      cases h
      exact .value v
    · intro h
      cases h
      rfl
  | property side p => exact readProperty_eq_ok
  | binary op l r =>
    constructor
    · intro h
      cases h
    · intro h
      cases h
  | call f args =>
    constructor
    · intro h
      cases h
    · intro h
      cases h

theorem formula_eq_ok {e : Expr} {f : Formula (Operand Value Column)} :
    s.formula e = .ok f ↔ s.Shapes e f := by
  have operandCase (e : Expr) : (do return .single (← s.operand e)) = Except.ok f ↔
      ∃ a, s.Names e a ∧ f = .single a := by
    simp only [bind_ok_iff, operand_eq_ok]
    constructor
    · intro h
      obtain ⟨a, ha, ⟨⟩⟩ := h
      exact ⟨a, ha, rfl⟩
    · intro h
      obtain ⟨a, ha, rfl⟩ := h
      exact ⟨a, ha, rfl⟩
  constructor
  · intro h
    cases e with
    | value v =>
      obtain ⟨a, ha, rfl⟩ := (operandCase _).1 h
      exact .single ha
    | property side p =>
      obtain ⟨a, ha, rfl⟩ := (operandCase _).1 h
      exact .single ha
    | binary op l r =>
      cases op with
      | arith op =>
        simp only [formula, bind_ok_iff, operand_eq_ok] at h
        obtain ⟨a, ha, b, hb, ⟨⟩⟩ := h
        exact .arith op ha hb
      | _ => cases h
    | call g args => cases h
  · intro h
    cases h with
    | single ha =>
      cases ha with
      | value v => rfl
      | property hc hs => exact (operandCase _).2 ⟨_, .property hc hs, rfl⟩
    | arith op ha hb =>
      simp only [formula, bind_ok_iff, operand_eq_ok]
      exact ⟨_, ha, _, hb, rfl⟩

theorem resolveAssigned_eq_ok {taken : List Column} {p : String} {c : Column} :
    s.resolveAssigned taken p = .ok c ↔
      s.find? p = some c ∧ c.generated = false ∧ c ∉ taken := by
  simp only [resolveAssigned, bind_ok_iff, resolve_eq_ok]
  constructor
  · intro h
    obtain ⟨d, hd, h⟩ := h
    by_cases hg : d.generated
    · simp [hg] at h
    · by_cases ht : d ∈ taken
      · simp [hg, ht] at h
      · obtain rfl : d = c := by simpa [hg, ht] using h
        exact ⟨hd, by simpa using hg, ht⟩
  · intro h
    obtain ⟨hc, hg, ht⟩ := h
    exact ⟨c, hc, by simp [hg, ht]⟩

/-- An explicit policy is accepted when every assignment is and no column is set twice. -/
theorem explicitAssignments_eq_ok {l : List (String × Expr)} {taken : List Column}
    {as : List KnownAssignment} :
    s.explicitAssignments taken l = .ok as ↔
      List.Forall₂ s.Sets l as ∧ (as.map (·.column)).Nodup ∧ ∀ a ∈ as, a.column ∉ taken := by
  induction l generalizing taken as with
  | nil =>
    cases as with
    | nil => simp [explicitAssignments]
    | cons a as => simp [explicitAssignments]
  | cons pe l ih =>
    obtain ⟨p, e⟩ := pe
    simp only [explicitAssignments, bind_ok_iff, resolveAssigned_eq_ok, formula_eq_ok, ih]
    constructor
    · intro h
      obtain ⟨c, ⟨hc, hg, ht⟩, f, hf, bs, ⟨hl, hn, hm⟩, ⟨⟩⟩ := h
      refine ⟨.cons ⟨hc, hg, hf⟩ hl, ?_, ?_⟩
      · simp only [List.map_cons, List.nodup_cons, List.mem_map, not_exists, not_and]
        exact ⟨fun b hb he => hm b hb (by simp [he]), hn⟩
      · intro b hb
        cases hb with
        | head => exact ht
        | tail _ hb => exact fun h => hm b hb (List.mem_cons_of_mem _ h)
    · intro h
      obtain ⟨h, hn, hm⟩ := h
      cases h with
      | @cons _ a _ bs ha hl =>
        simp only [List.map_cons, List.nodup_cons, List.mem_map, not_exists, not_and] at hn
        refine ⟨a.column, ⟨ha.find, ha.stored, hm a (by simp)⟩, a.formula, ha.shapes, bs,
          ⟨hl, hn.2, ?_⟩, rfl⟩
        intro b hb h
        rcases List.mem_cons.1 h with he | h
        · exact hn.1 b hb he
        · exact hm b (List.mem_cons_of_mem _ hb) h

theorem analyze_update_eq_ok {keys : List Column} {spec : UpdateSpec}
    {as : List KnownAssignment} :
    s.analyze keys (.update spec) = .ok as ↔
      spec.assignments ≠ [] ∧ List.Forall₂ s.Sets spec.assignments as ∧
        (as.map (·.column)).Nodup := by
  obtain ⟨l⟩ := spec
  cases l with
  | nil => simp [analyze, UpdateSpec.isEmpty]
  | cons pe l => simp [analyze, UpdateSpec.isEmpty, explicitAssignments_eq_ok]

theorem columns_defaultAssignments (s : Schema E) (keys : List Column) :
    (s.defaultAssignments keys).map (·.column) = s.insertColumns.filter (· ∉ keys) := by
  rw [defaultAssignments, List.map_map]
  exact List.map_id _

end UpsertSql.Schema
