import Mathlib.Data.List.FinRange
import UpsertSql.Proofs.Command

/-! The order of a specification. Analysis goes through it from the front and stops at the first
assignment it refuses, and binding counts the constants on from one to the next; yet rearranging the
specification only rearranges what they give. -/
namespace UpsertSql

section Families
variable {α β : Type} {n : Nat}

theorem exists_eq_ofFn {l : List α} (h : l.length = n) : ∃ f : Fin n → α, l = List.ofFn f := by
  subst h
  exact ⟨l.get, (List.ofFn_get l).symm⟩

theorem forall₂_ofFn {R : α → β → Prop} {f : Fin n → α} {g : Fin n → β} :
    List.Forall₂ R (List.ofFn f) (List.ofFn g) ↔ ∀ i, R (f i) (g i) := by
  simp [List.forall₂_iff_get, Fin.forall_iff]

end Families

/-- The assignments in another order: at `i` stands the one that stood at `σ i`. -/
def UpdateSpec.reorder (spec : UpdateSpec) (σ : Equiv.Perm (Fin spec.length)) : UpdateSpec :=
  ⟨List.ofFn (spec.assignments.get ∘ σ)⟩

namespace Schema
variable {E : Type} {s : Schema E} {keys : List Column} {n : Nat} {f : Fin n → String × Expr}
  {a : Fin n → KnownAssignment}

/-- Said of all assignments at once and of any two of them, acceptance knows no order. -/
theorem analyze_ofFn :
    s.analyze keys (.update ⟨List.ofFn f⟩) = .ok (List.ofFn a) ↔
      n ≠ 0 ∧ (∀ i, s.Sets (f i) (a i)) ∧ Function.Injective fun i => (a i).column := by
  rw [analyze_update_eq_ok, forall₂_ofFn, List.map_ofFn, List.nodup_ofFn, ne_eq,
    List.ofFn_eq_nil_iff]
  rfl

theorem analyze_ofFn_comp (σ : Equiv.Perm (Fin n)) :
    s.analyze keys (.update ⟨List.ofFn (f ∘ σ)⟩) = .ok (List.ofFn (a ∘ σ)) ↔
      s.analyze keys (.update ⟨List.ofFn f⟩) = .ok (List.ofFn a) := by
  rw [analyze_ofFn, analyze_ofFn]
  refine and_congr Iff.rfl (and_congr ?_ ?_)
  · exact (σ.surjective.forall (p := fun i => s.Sets (f i) (a i))).symm
  · exact Equiv.injective_comp σ fun i => (a i).column

theorem exists_ofFn_of_analyze {as : List KnownAssignment}
    (h : s.analyze keys (.update ⟨List.ofFn f⟩) = .ok as) :
    ∃ a : Fin n → KnownAssignment, as = List.ofFn a := by
  have hl := (analyze_update_eq_ok.1 h).2.1.length_eq
  rw [List.length_ofFn] at hl
  exact exists_eq_ofFn hl.symm

theorem exists_analyze_ofFn_comp (σ : Equiv.Perm (Fin n)) :
    (∃ as, s.analyze keys (.update ⟨List.ofFn (f ∘ σ)⟩) = .ok as) ↔
      ∃ as, s.analyze keys (.update ⟨List.ofFn f⟩) = .ok as := by
  constructor
  · intro h
    obtain ⟨as, h⟩ := h
    obtain ⟨a, rfl⟩ := exists_ofFn_of_analyze h
    have ha : a = (a ∘ σ.symm) ∘ σ := by simp [Function.comp_assoc]
    rw [ha] at h
    exact ⟨_, (analyze_ofFn_comp σ).1 h⟩
  · intro h
    obtain ⟨as, h⟩ := h
    obtain ⟨a, rfl⟩ := exists_ofFn_of_analyze h
    exact ⟨_, (analyze_ofFn_comp σ).2 h⟩

variable (s a)

/-- Two bindings of the same assignments, which come in the order of `σ` in the second. The
parameters of the rows are the same and the constants are those of the first in another order. Read
through its own parameters, each of the updates is the assignment it was. -/
structure Reordered (rows : List E) (σ : Equiv.Perm (Fin n)) (b b' : Bindings) : Prop where
  rowValues : b'.parameters.take (rows.length * s.insertColumns.length) =
    b.parameters.take (rows.length * s.insertColumns.length)
  constants : (b'.parameters.drop (rows.length * s.insertColumns.length)).Perm
    (b.parameters.drop (rows.length * s.insertColumns.length))
  recalled : b.updates.map (Assignment.map (b.parameters[·]?) id) =
    List.ofFn fun i => (a i).map some Column.name
  reordered : b'.updates.map (Assignment.map (b'.parameters[·]?) id) =
    List.ofFn fun i => (a (σ i)).map some Column.name

theorem bind_reordered {rows : List E} (h : rows ≠ []) (σ : Equiv.Perm (Fin n)) :
    ∃ b b', s.bind rows (List.ofFn a) = .ok b ∧ s.bind rows (List.ofFn (a ∘ σ)) = .ok b' ∧
      s.Reordered a rows σ b b' := by
  have recalled (c : Fin n → KnownAssignment) :
      (numberAssignments (rows.length * s.insertColumns.length) (List.ofFn c)).2.map
          (Assignment.map ((s.parameters rows (List.ofFn c))[·]?) id) =
        List.ofFn fun i => (c i).map some Column.name := by
    rw [numberAssignments_recall _ _ (s.constants_standing rows _), List.map_ofFn]
    rfl
  refine ⟨_, _, s.bind_eq_ok.2 ⟨h, rfl⟩, s.bind_eq_ok.2 ⟨h, rfl⟩, ?_⟩
  constructor
  case rowValues => rw [s.take_parameters, s.take_parameters]
  case constants =>
    rw [s.drop_parameters, s.drop_parameters]
    exact (σ.ofFn_comp_perm a).flatMap_right _
  case recalled => exact recalled a
  case reordered => exact recalled (a ∘ σ)

/-- A specification is accepted in every order or in none. Its assignments come in the order it is
written in, and so do the constants behind the rows. -/
theorem analyze_reorder (keys : List Column) (spec : UpdateSpec)
    (σ : Equiv.Perm (Fin spec.length)) :
    ((∃ as, s.analyze keys (.update (spec.reorder σ)) = .ok as) ↔
      ∃ as, s.analyze keys (.update spec) = .ok as) ∧
    ∀ as, s.analyze keys (.update spec) = .ok as →
      ∃ a : Fin spec.length → KnownAssignment, as = List.ofFn a ∧
        s.analyze keys (.update (spec.reorder σ)) = .ok (List.ofFn (a ∘ σ)) ∧
        ∀ rows : List E, rows ≠ [] →
          ∃ b b', s.bind rows as = .ok b ∧ s.bind rows (List.ofFn (a ∘ σ)) = .ok b' ∧
            s.Reordered a rows σ b b' := by
  have hspec : s.analyze keys (.update spec) =
      s.analyze keys (.update ⟨List.ofFn spec.assignments.get⟩) := by rw [List.ofFn_get]
  rw [hspec]
  refine ⟨exists_analyze_ofFn_comp σ, fun as h => ?_⟩
  obtain ⟨a, rfl⟩ := exists_ofFn_of_analyze h
  exact ⟨a, rfl, (analyze_ofFn_comp σ).2 h, fun rows hr => s.bind_reordered a hr σ⟩

end Schema

/-- Two assignments that bring a literal each, in both orders. -/
theorem analyze_reorder_hits :
    ∃ a b : KnownAssignment,
      Request.hits.schema.analyze [] (.update ⟨[("count", .target "count" + .value (.int 1)),
        ("page", .value (.text "seen"))]⟩) = .ok [a, b] ∧
      Request.hits.schema.analyze [] (.update ⟨[("page", .value (.text "seen")),
        ("count", .target "count" + .value (.int 1))]⟩) = .ok [b, a] ∧
      ∃ ab ba, Request.hits.schema.bind [("a", 1), ("b", 2)] [a, b] = .ok ab ∧
        Request.hits.schema.bind [("a", 1), ("b", 2)] [b, a] = .ok ba ∧
        ba.parameters.take 4 = ab.parameters.take 4 ∧
        (ba.parameters.drop 4).Perm (ab.parameters.drop 4) := by
  obtain ⟨a, ha, hr, hb⟩ := (Request.hits.schema.analyze_reorder [] ⟨[("count",
    .target "count" + .value (.int 1)), ("page", .value (.text "seen"))]⟩
    (@Equiv.swap (Fin 2) _ 0 1)).2 _ rfl
  obtain ⟨ab, ba, hab, hba, h⟩ := hb [("a", 1), ("b", 2)] (List.cons_ne_nil _ _)
  rw [ha] at hab
  exact ⟨a (0 : Fin 2), a (1 : Fin 2), congrArg Except.ok ha, hr, ab, ba, hab, hba,
    h.rowValues, h.constants⟩

end UpsertSql
