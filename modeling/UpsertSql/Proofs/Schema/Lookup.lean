import Mathlib.Data.List.Forall2
import Mathlib.Data.List.Induction
import Mathlib.Data.List.Nodup
import UpsertSql.Schema.Lookup

/-! When a property leads to a column, and when a list of properties makes a key. -/
namespace UpsertSql

/-- A computation in two steps succeeds when both do. -/
theorem bind_ok_iff {ε α β : Type} {x : Except ε α} {f : α → Except ε β} {b : β} :
    (x >>= f) = .ok b ↔ ∃ a, x = .ok a ∧ f a = .ok b := by
  cases x with
  | error e => simp [bind, Except.bind]
  | ok a => simp [bind, Except.bind]

theorem mapM_ok_iff {ε α β : Type} {f : α → Except ε β} {l : List α} {bs : List β} :
    l.mapM f = .ok bs ↔ List.Forall₂ (fun a b => f a = .ok b) l bs := by
  induction l generalizing bs with
  | nil => simp [pure, Except.pure, eq_comm]
  | cons a l ih =>
    simp only [List.mapM_cons, bind_ok_iff, ih]
    constructor
    · intro h
      obtain ⟨b, hb, bs, hl, ⟨⟩⟩ := h
      exact .cons hb hl
    · intro h
      cases h with
      | cons hb hl => exact ⟨_, hb, _, hl, rfl⟩

theorem exists_of_forall₂ {α β : Type} {R : α → β → Prop} {l : List α} {l' : List β}
    (h : List.Forall₂ R l l') {b : β} (hb : b ∈ l') : ∃ a ∈ l, R a b := by
  induction h with
  | nil => cases hb
  | @cons a b' l l' hab hl ih =>
    cases hb with
    | head => exact ⟨a, List.mem_cons_self, hab⟩
    | tail _ hb =>
      obtain ⟨a', ha, hab'⟩ := ih hb
      exact ⟨a', List.mem_cons_of_mem a ha, hab'⟩

theorem exists_forall₂ {α β : Type} {R : α → β → Prop} {l : List α} (h : ∀ a ∈ l, ∃ b, R a b) :
    ∃ l', List.Forall₂ R l l' := by
  induction l with
  | nil => exact ⟨[], .nil⟩
  | cons a l ih =>
    obtain ⟨b, hb⟩ := h a List.mem_cons_self
    obtain ⟨l', hl⟩ := ih fun a' ha => h a' (List.mem_cons_of_mem a ha)
    exact ⟨b :: l', .cons hb hl⟩

section
variable {α : Type} [DecidableEq α]

/-- What comes last is dropped if it was there before. -/
theorem eraseDups_concat (l : List α) (a : α) :
    (l ++ [a]).eraseDups = if a ∈ l then l.eraseDups else l.eraseDups ++ [a] := by
  rw [List.eraseDups_append]
  by_cases h : a ∈ l
  · simp [h, List.removeAll]
  · simp [h, List.removeAll, List.eraseDups_cons]

/-- What is left stands in the order in which it comes first in the list. -/
theorem pairwise_idxOf_eraseDups (l : List α) :
    l.eraseDups.Pairwise fun a b => l.idxOf a < l.idxOf b := by
  -- from the end, since what comes last is compared with all that came before it
  induction l using List.reverseRecOn with
  | nil => exact .nil
  | append_singleton l a ih =>
    have hl : l.eraseDups.Pairwise fun b c => (l ++ [a]).idxOf b < (l ++ [a]).idxOf c := by
      refine ih.imp_of_mem fun hb hc hbc => ?_
      rw [List.mem_eraseDups] at hb hc
      rwa [List.idxOf_append_of_mem hb, List.idxOf_append_of_mem hc]
    rw [eraseDups_concat]
    by_cases h : a ∈ l
    · rwa [if_pos h]
    · rw [if_neg h, List.pairwise_append]
      refine ⟨hl, List.pairwise_singleton _ _, fun b hb c hc => ?_⟩
      obtain rfl := List.mem_singleton.1 hc
      have hbl : b ∈ l := List.mem_eraseDups.1 hb
      have hlt := List.idxOf_lt_length_of_mem hbl
      rw [List.idxOf_append_of_mem hbl, List.idxOf_append_of_notMem h]
      omega

theorem nodup_eraseDups (l : List α) : l.eraseDups.Nodup := by
  refine (pairwise_idxOf_eraseDups l).imp fun hlt he => ?_
  rw [he] at hlt
  exact Nat.lt_irrefl _ hlt

end

namespace Schema
variable {E : Type} {s : Schema E} {p : String} {c : Column}

theorem resolve_eq_ok : s.resolve p = .ok c ↔ s.find? p = some c := by
  unfold resolve
  cases s.find? p with
  | none => simp
  | some d => simp

/-- What is found is the first column declared with the property. -/
theorem first_of_find? (h : s.find? p = some c) :
    s.columns.find? (·.property == p) = some c := h

theorem mem_columns_of_find? (h : s.find? p = some c) : c ∈ s.columns :=
  List.mem_of_find?_eq_some h

theorem property_of_find? (h : s.find? p = some c) : c.property = p := by
  simpa using List.find?_some h

/-- Where no property is declared twice, each leads to its own column. -/
theorem find?_property (h : (s.columns.map (·.property)).Nodup) (hc : c ∈ s.columns) :
    s.find? c.property = some c := by
  unfold find?
  generalize s.columns = cs at h hc
  induction cs with
  | nil => cases hc
  | cons d cs ih =>
    rw [List.map_cons, List.nodup_cons] at h
    cases hc with
    | head => simp
    | tail _ hc =>
      have hd : d.property ≠ c.property := fun he => h.1 (he ▸ List.mem_map_of_mem hc)
      rw [List.find?_cons_of_neg (by simpa using hd)]
      exact ih h.2 hc

theorem mem_insertColumns : c ∈ s.insertColumns ↔ c ∈ s.columns ∧ c.generated = false := by
  simp [insertColumns]

theorem nodup_insertColumns (h : (s.columns.map (·.property)).Nodup) : s.insertColumns.Nodup :=
  (List.Nodup.of_map _ h).filter _

theorem resolveKey_eq_ok : s.resolveKey p = .ok c ↔ s.find? p = some c ∧ c.generated = false := by
  simp only [resolveKey, bind_ok_iff, resolve_eq_ok]
  constructor
  · intro h
    obtain ⟨d, hd, h⟩ := h
    by_cases hg : d.generated
    · simp [hg] at h
    · obtain rfl : d = c := by simpa [hg] using h
      exact ⟨hd, by simpa using hg⟩
  · intro h
    exact ⟨c, h.1, by simp [h.2]⟩

/-- A key is made of stored columns, one at least. -/
theorem resolveKeys_eq_ok {ps : List String} {cs : List Column} :
    s.resolveKeys ps = .ok cs ↔ ps ≠ [] ∧ ∃ ds : List Column,
      List.Forall₂ (fun p d => s.find? p = some d ∧ d.generated = false) ps ds ∧
        cs = ds.eraseDups := by
  cases ps with
  | nil => simp [resolveKeys]
  | cons p ps =>
    have h : s.resolveKeys (p :: ps) = (do return (← (p :: ps).mapM s.resolveKey).eraseDups) := rfl
    simp only [h, bind_ok_iff, mapM_ok_iff, resolveKey_eq_ok, ne_eq, reduceCtorEq,
      not_false_eq_true, true_and]
    constructor
    · intro h
      obtain ⟨ds, hl, ⟨⟩⟩ := h
      exact ⟨ds, hl, rfl⟩
    · intro h
      obtain ⟨ds, hl, rfl⟩ := h
      exact ⟨ds, hl, rfl⟩

variable {ps : List String} {cs : List Column}

/-- Every property has to lead to a stored column. -/
theorem exists_resolveKeys_eq_ok :
    (∃ cs, s.resolveKeys ps = .ok cs) ↔
      ps ≠ [] ∧ ∀ p ∈ ps, ∃ c, s.find? p = some c ∧ c.generated = false := by
  simp only [resolveKeys_eq_ok]
  constructor
  · intro h
    obtain ⟨cs, hne, ds, hl, -⟩ := h
    refine ⟨hne, fun p hp => ?_⟩
    obtain ⟨d, -, hd⟩ := exists_of_forall₂ hl.flip hp
    exact ⟨d, hd⟩
  · intro h
    obtain ⟨ds, hl⟩ := exists_forall₂ h.2
    exact ⟨ds.eraseDups, h.1, ds, hl, rfl⟩

variable (h : s.resolveKeys ps = .ok cs)
include h

theorem mem_resolveKeys : c ∈ cs ↔ ∃ p ∈ ps, s.find? p = some c := by
  obtain ⟨-, ds, hl, rfl⟩ := resolveKeys_eq_ok.1 h
  rw [List.mem_eraseDups]
  constructor
  · intro hc
    obtain ⟨p, hp, hf, -⟩ := exists_of_forall₂ hl hc
    exact ⟨p, hp, hf⟩
  · intro hc
    obtain ⟨p, hp, hf⟩ := hc
    obtain ⟨d, hd, hfd, -⟩ := exists_of_forall₂ hl.flip hp
    obtain rfl : d = c := Option.some.inj (hfd.symm.trans hf)
    exact hd

theorem nodup_resolveKeys : cs.Nodup := by
  obtain ⟨-, ds, -, rfl⟩ := resolveKeys_eq_ok.1 h
  exact nodup_eraseDups ds

theorem ne_nil_of_resolveKeys : cs ≠ [] := by
  obtain ⟨hne, ds, hl, rfl⟩ := resolveKeys_eq_ok.1 h
  cases hl with
  | nil => exact absurd rfl hne
  | cons hd hl => simp [List.eraseDups_cons]

theorem insertColumns_of_resolveKeys (hc : c ∈ cs) : c ∈ s.insertColumns := by
  obtain ⟨-, ds, hl, rfl⟩ := resolveKeys_eq_ok.1 h
  obtain ⟨p, -, hp, hg⟩ := exists_of_forall₂ hl (List.mem_eraseDups.1 hc)
  exact mem_insertColumns.2 ⟨mem_columns_of_find? hp, hg⟩

end Schema
end UpsertSql
