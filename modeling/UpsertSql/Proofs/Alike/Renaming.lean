import Mathlib.Data.Set.Function
import UpsertSql.Proofs.Alike.Statement

/-! Names never reach the structure of a statement. A schema whose table, namespace and columns go by
other names is compiled to the same text around its quoted names, whatever these hold, and between
the quotes each name gives way to its replacement. -/
namespace UpsertSql
open List (Forall₂)
open Relator (BiUnique)

/-- Which failure it is, without what it tells. -/
inductive Failure.Variant where
  | malformedUpdate | unknownColumn | unsupportedOperation | invalidKey | emptyBatch | backend
  deriving DecidableEq

def Failure.variant : Failure → Variant
  | malformedUpdate _ => .malformedUpdate
  | unknownColumn _ _ => .unknownColumn
  | unsupportedOperation _ => .unsupportedOperation
  | invalidKey _ => .invalidKey
  | emptyBatch => .emptyBatch
  | backend _ => .backend

theorem Failure.Alike.variant_eq {T N : String → String → Prop} {f g : Failure}
    (h : Failure.Alike T N f g) : f.variant = g.variant := by
  cases h <;> rfl

variable {E : Type}

namespace Schema

/-- The storage names of the columns. -/
def names (s : Schema E) : Set String := {n | ∃ c ∈ s.columns, c.name = n}

/-- The names a statement may hold. -/
def Mentions (s : Schema E) (n : String) : Prop :=
  n = "T" ∨ n = "S" ∨ n = s.table.name ∨ s.table.qualifier = some n ∨ n ∈ s.names

end Schema

/-- Other names for a table, its namespace and its columns. -/
structure Renaming where
  table : String
  qualifier : String
  column : String → String

/-- The namespace is replaced where there is one. -/
def Schema.rename (s : Schema E) (ρ : Renaming) : Schema E where
  table := { name := ρ.table, qualifier := s.table.qualifier.map fun _ => ρ.qualifier }
  fields := s.fields.map fun f => { f with name := ρ.column f.name }

def Request.rename (r : Request E) (ρ : Renaming) : Request E :=
  { r with schema := r.schema.rename ρ }

/-- What may stand in the place of a name: for the two aliases only themselves. -/
inductive Renaming.Replaces (ρ : Renaming) (s : Schema E) : String → String → Prop
  | targetAlias : Replaces ρ s "T" "T"
  | sourceAlias : Replaces ρ s "S" "S"
  | table : Replaces ρ s s.table.name ρ.table
  | qualifier {q : String} (h : s.table.qualifier = some q) : Replaces ρ s q ρ.qualifier
  | column {n : String} (h : n ∈ s.names) : Replaces ρ s n (ρ.column n)

namespace Renaming
variable (ρ : Renaming) (s : Schema E)

/-- The part of the replacement that columns are looked up by. -/
def Moves (a b : String) : Prop := a ∈ s.names ∧ b = ρ.column a

variable {ρ s}

theorem Moves.replaces {a b : String} (h : ρ.Moves s a b) : ρ.Replaces s a b := by
  obtain ⟨ha, rfl⟩ := h
  exact .column ha

theorem Replaces.mentions {a b : String} (h : ρ.Replaces s a b) : s.Mentions a := by
  cases h with
  | targetAlias => exact .inl rfl
  | sourceAlias => exact .inr (.inl rfl)
  | table => exact .inr (.inr (.inl rfl))
  | qualifier hq => exact .inr (.inr (.inr (.inl hq)))
  | column hn => exact .inr (.inr (.inr (.inr hn)))

theorem biUnique_moves (h : Set.InjOn ρ.column s.names) : BiUnique (ρ.Moves s) := by
  constructor
  · intro a b c ha hb
    exact h ha.1 hb.1 (ha.2.symm.trans hb.2)
  · intro a b c hb hc
    exact hb.2.trans hc.2.symm

end Renaming

namespace Schema
variable (s : Schema E) (ρ : Renaming)

theorem columns_rename :
    (s.rename ρ).columns = s.columns.map fun c => { c with name := ρ.column c.name } := by
  simp only [columns, rename, List.map_map]
  rfl

/-- The values of a row are read as before. -/
theorem rowOf_rename (e : E) : (s.rename ρ).rowOf e = s.rowOf e := by
  have hr : (s.rename ρ).readers = s.readers := by
    simp only [readers, rename, List.filterMap_map]
    rfl
  rw [rowOf, rowOf, hr]

theorem alike_rename : s.Alike (ρ.Replaces s) (ρ.Moves s) (s.rename ρ) where
  table := {
    name := .table
    qualifier := by
      cases hq : s.table.qualifier with
      | none =>
        simp only [rename, hq, Option.map_none]
        exact .none
      | some q =>
        simp only [rename, hq, Option.map_some]
        exact .some (.qualifier hq) }
  columns := by
    rw [columns_rename, List.forall₂_map_right_iff]
    exact List.forall₂_same.2 fun c hc => ⟨rfl, ⟨⟨c, hc, rfl⟩, rfl⟩, rfl⟩

end Schema

theorem Request.alike_rename (r : Request E) (ρ : Renaming) :
    r.Alike (ρ.Replaces r.schema) (ρ.Moves r.schema) Eq (r.rename ρ) where
  schema := r.schema.alike_rename ρ
  rows := by
    refine List.forall₂_same.2 fun e _ => ?_
    rw [List.forall₂_eq_eq_eq]
    exact (r.schema.rowOf_rename ρ e).symm
  keys := rfl
  policy := .refl (fun _ => rfl) r.policy

/-- The texts are the same outside quoted names, and each name of the one stands where its
replacement stands in the other. -/
def Engine.Corresponds (e : Engine) (P : String → String → Prop) (a b : String) : Prop :=
  ∃ k l, e.renderer.quotes.lexemes a.toList = some k ∧ e.renderer.quotes.lexemes b.toList = some l ∧
    Forall₂ (Lexeme.Alike P) k l

/-- The names that are quoted in a text. -/
def Engine.quotedNames (e : Engine) (a : String) : Option (List String) :=
  (e.renderer.quotes.lexemes a.toList).map fun k => k.filterMap fun
    | .name s => some (.ofList s)
    | .char _ => none

namespace Engine
variable (e : Engine) {P : String → String → Prop}

theorem corresponds_statement (hT : P "T" "T") (hS : P "S" "S") {u v : Upsert}
    (huv : u.Alike P P v) : e.Corresponds P (e.renderer.statement u) (e.renderer.statement v) :=
  ⟨_, _, e.lexemes_statement u, e.lexemes_statement v,
    e.renderer.forall₂_lexemes (e.forall₂_pieces hT hS huv)⟩

variable {e}

theorem Corresponds.quotedNames {a b : String} (h : e.Corresponds P a b) {Q : String → Prop}
    (hP : ∀ s t, P s t → Q s) : ∃ names, e.quotedNames a = some names ∧ ∀ n ∈ names, Q n := by
  obtain ⟨k, l, hk, -, hkl⟩ := h
  refine ⟨_, by rw [Engine.quotedNames, hk, Option.map_some], ?_⟩
  clear hk
  induction hkl with
  | nil => simp
  | cons hxy hkl ih =>
    cases hxy with
    | char c => simpa using ih
    | name hst => simpa using ⟨hP _ _ hst, by simpa using ih⟩

end Engine

/-- Under other names a request is refused for the same kind of reason or compiled with the same
parameters to a text of the same structure. -/
theorem compile_rename (e : Engine) (r : Request E) (ρ : Renaming)
    (h : Set.InjOn ρ.column r.schema.names) :
    Agree (fun f g => f.variant = g.variant)
      (fun c c' => c.parameters = c'.parameters ∧
        e.Corresponds (ρ.Replaces r.schema) c.sql c'.sql ∧
        ∃ names, e.quotedNames c.sql = some names ∧ ∀ n ∈ names, r.schema.Mentions n)
      (e.renderer.compile r) (e.renderer.compile (r.rename ρ)) := by
  have hb := (r.alike_rename ρ).bind (Renaming.biUnique_moves h)
  refine (hb.imp (fun _ _ hf => hf.variant_eq) fun _ _ hu => hu).bind fun a b hab => ?_
  have hu : a.1.Alike (ρ.Replaces r.schema) (ρ.Replaces r.schema) b.1 :=
    hab.1.imp (fun _ _ ht => ht) fun _ _ hn => hn.replaces
  have hps : a.2 = b.2 := List.forall₂_eq_eq_eq ▸ hab.2
  have hsql := e.corresponds_statement .targetAlias .sourceAlias hu
  exact .ok ⟨hps, hsql, hsql.quotedNames fun _ _ hP => hP.mentions⟩

/-- Names that would end the quotes and go on with a statement of their own. -/
def Renaming.hostile : Renaming where
  table := "hits\" AS \"T\" DO NOTHING; --"
  qualifier := "\""
  column n := n ++ "\") VALUES ($1); --"

theorem compile_rename_hits :
    Set.InjOn Renaming.hostile.column Request.hits.schema.names ∧
      ∃ c c', Dialect.postgres.compile .hits = .ok c ∧
        Dialect.postgres.compile (Request.hits.rename .hostile) = .ok c' ∧
        Engine.postgres.Corresponds (Renaming.hostile.Replaces Request.hits.schema) c.sql c'.sql := by
  have hi : Set.InjOn Renaming.hostile.column Request.hits.schema.names := by
    intro a _ b _ h
    simpa [Renaming.hostile] using h
  obtain ⟨c, hc⟩ : ∃ c, Dialect.postgres.compile .hits = .ok c := ⟨_, rfl⟩
  obtain ⟨c', hc'⟩ : ∃ c', Dialect.postgres.compile (Request.hits.rename .hostile) = .ok c' :=
    ⟨_, rfl⟩
  have h := compile_rename .postgres .hits .hostile hi
  refine ⟨hi, c, c', hc, hc', ?_⟩
  change Agree _ _ (Dialect.postgres.compile _) (Dialect.postgres.compile _) at h
  rw [hc, hc'] at h
  cases h with
  | ok h => exact h.2.1

end UpsertSql
