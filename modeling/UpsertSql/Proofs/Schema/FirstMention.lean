import UpsertSql.Proofs.Schema.Lookup

/-! The key that a list of properties makes: the columns these lead to, each where its property is
mentioned first. It is settled by this alone, and resolving it again leaves it as it is. -/
namespace UpsertSql
open List (Forall₂)
open Relator (BiUnique)

/-- Partners come first at the same place. -/
theorem idxOf_of_forall₂ {α β : Type} [DecidableEq α] [DecidableEq β] {R : α → β → Prop}
    (hR : BiUnique R) {l : List α} {l' : List β} (h : Forall₂ R l l') {a : α} {b : β}
    (hab : R a b) : l.idxOf a = l'.idxOf b := by
  induction h with
  | nil => rfl
  | @cons c d l l' hcd hl ih =>
    have he : c = a ↔ d = b := Relator.rel_eq hR hcd hab
    rw [List.idxOf_cons, List.idxOf_cons, ih]
    by_cases hd : d = b
    · rw [beq_iff_eq.2 hd, beq_iff_eq.2 (he.2 hd)]
    · rw [beq_eq_false_iff_ne.2 hd, beq_eq_false_iff_ne.2 (mt he.1 hd)]

namespace Schema
variable {E : Type}

/-- The columns are those that the properties lead to, each of them stored and there once, in the
order in which the properties are first mentioned. -/
structure FirstMentions (s : Schema E) (ps : List String) (cs : List Column) : Prop where
  nonempty : cs ≠ []
  stored : ∀ c ∈ cs, c ∈ s.insertColumns
  columns : cs.Nodup
  properties : (cs.map (·.property)).Nodup
  complete : ∀ p ∈ ps, ∃ c ∈ cs, s.find? p = some c
  mentioned : ∀ c ∈ cs, ∃ p ∈ ps, s.find? p = some c
  ordered : cs.Pairwise fun c d => ps.idxOf c.property < ps.idxOf d.property

variable {s : Schema E} {ps : List String} {cs : List Column}

/-- A property leads to one column, and a column is led to by its own property alone. -/
theorem biUnique_find? :
    BiUnique fun (p : String) (c : Column) => s.find? p = some c ∧ c.generated = false := by
  constructor
  · intro p c q hp hq
    exact (property_of_find? hp.1).symm.trans (property_of_find? hq.1)
  · intro p c d hc hd
    exact Option.some.inj (hc.1.symm.trans hd.1)

theorem ordered_of_resolveKeys (h : s.resolveKeys ps = .ok cs) :
    cs.Pairwise fun c d => ps.idxOf c.property < ps.idxOf d.property := by
  obtain ⟨-, ds, hl, rfl⟩ := resolveKeys_eq_ok.1 h
  have hi (c : Column) (hc : c ∈ ds.eraseDups) : ps.idxOf c.property = ds.idxOf c := by
    obtain ⟨p, -, hp⟩ := exists_of_forall₂ hl (List.mem_eraseDups.1 hc)
    rw [property_of_find? hp.1]
    exact idxOf_of_forall₂ biUnique_find? hl hp
  refine (pairwise_idxOf_eraseDups ds).imp_of_mem fun hc hd hcd => ?_
  rwa [hi _ hc, hi _ hd]

theorem firstMentions_of_resolveKeys (h : s.resolveKeys ps = .ok cs) : s.FirstMentions ps cs where
  nonempty := ne_nil_of_resolveKeys h
  stored c hc := insertColumns_of_resolveKeys h hc
  columns := nodup_resolveKeys h
  properties := by
    rw [List.Nodup, List.pairwise_map]
    refine (ordered_of_resolveKeys h).imp fun hlt he => ?_
    rw [he] at hlt
    exact Nat.lt_irrefl _ hlt
  complete p hp := by
    obtain ⟨c, hc, -⟩ := (exists_resolveKeys_eq_ok.1 ⟨cs, h⟩).2 p hp
    exact ⟨c, (mem_resolveKeys h).2 ⟨p, hp, hc⟩, hc⟩
  mentioned c hc := (mem_resolveKeys h).1 hc
  ordered := ordered_of_resolveKeys h

namespace FirstMentions
variable (h : s.FirstMentions ps cs)
include h

theorem mem_iff (c : Column) : c ∈ cs ↔ ∃ p ∈ ps, s.find? p = some c := by
  constructor
  · exact h.mentioned c
  · intro hc
    obtain ⟨p, hp, hc⟩ := hc
    obtain ⟨d, hd, hpd⟩ := h.complete p hp
    obtain rfl : d = c := Option.some.inj (hpd.symm.trans hc)
    exact hd

/-- Two lists of the same columns in the same order. -/
theorem unique {cs' : List Column} (h' : s.FirstMentions ps cs') : cs = cs' := by
  have hperm : cs.Perm cs' := by
    rw [List.perm_ext_iff_of_nodup h.columns h'.columns]
    intro c
    rw [h.mem_iff, h'.mem_iff]
  refine List.Perm.eq_of_pairwise (fun c d _ _ hcd hdc => ?_) h.ordered h'.ordered hperm
  omega

theorem find?_property {c : Column} (hc : c ∈ cs) : s.find? c.property = some c := by
  obtain ⟨p, -, hp⟩ := h.mentioned c hc
  rwa [property_of_find? hp]

/-- The properties of the key are mentioned in the order of the key, each of them once. -/
theorem again : s.FirstMentions (cs.map (·.property)) cs where
  nonempty := h.nonempty
  stored := h.stored
  columns := h.columns
  properties := h.properties
  complete := by
    refine List.forall_mem_map.2 fun c hc => ?_
    exact ⟨c, hc, h.find?_property hc⟩
  mentioned c hc := ⟨c.property, List.mem_map_of_mem hc, h.find?_property hc⟩
  ordered := by
    rw [List.pairwise_iff_getElem]
    intro i j hi hj hij
    have hat (k : Nat) (hk : k < cs.length) :
        (cs.map (·.property)).idxOf cs[k].property = k := by
      have hk' : k < (cs.map (·.property)).length := by rwa [List.length_map]
      have := h.properties.idxOf_getElem k hk'
      rwa [List.getElem_map] at this
    rwa [hat i hi, hat j hj]

theorem resolveKeys : s.resolveKeys ps = .ok cs := by
  have hall (p : String) (hp : p ∈ ps) : ∃ c, s.find? p = some c ∧ c.generated = false := by
    obtain ⟨c, hc, hpc⟩ := h.complete p hp
    exact ⟨c, hpc, (mem_insertColumns.1 (h.stored c hc)).2⟩
  have hne : ps ≠ [] := by
    obtain ⟨c, hc⟩ := List.exists_mem_of_ne_nil cs h.nonempty
    obtain ⟨p, hp, -⟩ := h.mentioned c hc
    exact List.ne_nil_of_mem hp
  obtain ⟨cs', hcs'⟩ := exists_resolveKeys_eq_ok.2 ⟨hne, hall⟩
  rw [hcs', h.unique (firstMentions_of_resolveKeys hcs')]

end FirstMentions

/-- Properties make the key of their first mentions or none, and a key makes itself. -/
theorem resolveKeys_first_mentions (s : Schema E) (ps : List String) (cs : List Column) :
    (s.resolveKeys ps = .ok cs ↔ s.FirstMentions ps cs) ∧
      (s.resolveKeys ps = .ok cs → s.resolveKeys (cs.map (·.property)) = .ok cs) := by
  constructor
  · exact ⟨firstMentions_of_resolveKeys, FirstMentions.resolveKeys⟩
  · intro h
    exact (firstMentions_of_resolveKeys h).again.resolveKeys

/-- Two properties of one storage name, one of which is declared once more. -/
def pages : Schema (String × Int64) :=
  (((ofTable "pages").storedAs "page" "key" fun e => .text e.1).storedAs
    "count" "key" fun e => .int e.2).generated "page"

theorem resolveKeys_first_mentions_pages :
    pages.resolveKeys ["count", "page", "count"] =
        .ok [⟨"count", "key", false⟩, ⟨"page", "key", false⟩] ∧
      pages.FirstMentions ["count", "page", "count"]
        [⟨"count", "key", false⟩, ⟨"page", "key", false⟩] ∧
      pages.resolveKeys ["count", "page"] =
        .ok [⟨"count", "key", false⟩, ⟨"page", "key", false⟩] := by
  have hk : pages.resolveKeys ["count", "page", "count"] =
      .ok [⟨"count", "key", false⟩, ⟨"page", "key", false⟩] := rfl
  obtain ⟨hiff, hagain⟩ := pages.resolveKeys_first_mentions ["count", "page", "count"]
    [⟨"count", "key", false⟩, ⟨"page", "key", false⟩]
  exact ⟨hk, hiff.1 hk, hagain hk⟩

end Schema
end UpsertSql
