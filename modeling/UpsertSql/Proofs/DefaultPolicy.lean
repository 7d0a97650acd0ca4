import UpsertSql.Proofs.Dialect.Branch

/-! What the default policy stands for. Where there is something to update it is a specification
that a caller could have written; where there is nothing, it does nothing. -/
namespace UpsertSql
variable {E : Type}

namespace Schema

/-- Each stored property outside the key is set to its incoming value. -/
def incomingSpec (s : Schema E) (key : List String) : UpdateSpec :=
  ⟨(s.insertColumns.filter (·.property ∉ key)).map fun c => (c.property, .source c.property)⟩

variable {s : Schema E} {key : List String} {keys : List Column} {c : Column}

theorem defaultAssignments_eq_nil (h : ∀ c ∈ s.insertColumns, c ∈ keys) :
    s.defaultAssignments keys = [] := by
  rw [defaultAssignments, List.filter_eq_nil_iff.2 (by simpa using h), List.map_nil]

theorem exists_defaultAssignments_eq_cons (h : ∃ c ∈ s.insertColumns, c ∉ keys) :
    ∃ c cs, s.defaultAssignments keys = .fromSource c :: cs := by
  obtain ⟨c, hc, hk⟩ := h
  unfold defaultAssignments
  cases hl : s.insertColumns.filter (· ∉ keys) with
  | nil => exact absurd hk (by simpa using List.filter_eq_nil_iff.1 hl c hc)
  | cons d ds => exact ⟨d, ds.map .fromSource, rfl⟩

variable (hs : (s.columns.map (·.property)).Nodup)
include hs

/-- Where each property is declared once, a column is in the key when its property is. -/
theorem mem_resolveKeys_iff_property (hk : s.resolveKeys key = .ok keys) (hc : c ∈ s.columns) :
    c ∈ keys ↔ c.property ∈ key := by
  rw [mem_resolveKeys hk]
  constructor
  · intro h
    obtain ⟨p, hp, hf⟩ := h
    rwa [property_of_find? hf]
  · intro h
    exact ⟨c.property, h, find?_property hs hc⟩

theorem sets_source (hc : c ∈ s.insertColumns) :
    s.Sets (c.property, .source c.property) (.fromSource c) := by
  obtain ⟨hin, hg⟩ := mem_insertColumns.1 hc
  have hf := find?_property hs hin
  exact ⟨hf, hg, .single (.property hf fun _ => hg)⟩

/-- Nothing in the specification is refused: every column is found again, is stored, and comes
once. -/
theorem analyze_incomingSpec (hk : s.resolveKeys key = .ok keys)
    (h : ∃ c ∈ s.insertColumns, c ∉ keys) :
    s.analyze keys (.update (s.incomingSpec key)) = .ok (s.defaultAssignments keys) := by
  have hf : s.insertColumns.filter (·.property ∉ key) = s.insertColumns.filter (· ∉ keys) := by
    refine List.filter_congr fun c hc => ?_
    simp only [mem_resolveKeys_iff_property hs hk (mem_insertColumns.1 hc).1]
  rw [incomingSpec, hf, analyze_update_eq_ok]
  refine ⟨?_, ?_, ?_⟩
  · obtain ⟨c, hc, hout⟩ := h
    have hin : c ∈ s.insertColumns.filter (· ∉ keys) := by simpa using ⟨hc, hout⟩
    exact List.ne_nil_of_mem (List.mem_map_of_mem hin)
  · rw [defaultAssignments, List.forall₂_map_left_iff, List.forall₂_map_right_iff,
      List.forall₂_same]
    exact fun c hc => sets_source hs (List.mem_of_mem_filter hc)
  · rw [columns_defaultAssignments]
    exact (nodup_insertColumns hs).filter _

end Schema

/-- What a stored column outside the key is written for is never written for doing nothing. -/
theorem Engine.sql_updateAll_ne (e : Engine) {s : Schema E} {rows : List E} {key : List String}
    {keys : List Column} {command idle : Command} (hk : s.resolveKeys key = .ok keys)
    (h : ∃ c ∈ s.insertColumns, c ∉ keys)
    (hc : e.renderer.compile ⟨s, rows, key, .updateAll⟩ = .ok command)
    (hi : e.renderer.compile ⟨s, rows, key, .doNothing⟩ = .ok idle) : command.sql ≠ idle.sql := by
  obtain ⟨c, cs, ha⟩ := Schema.exists_defaultAssignments_eq_cons h
  have hall : Request.plan ⟨s, rows, key, .updateAll⟩ = .ok ⟨keys, .fromSource c :: cs⟩ :=
    Request.plan_eq_ok.2 ⟨hk, congrArg Except.ok ha⟩
  have hnone : Request.plan ⟨s, rows, key, .doNothing⟩ = .ok ⟨keys, []⟩ :=
    Request.plan_eq_ok.2 ⟨hk, rfl⟩
  rw [Dialect.sql_of_compile hall hc, Dialect.sql_of_compile hnone hi, e.statement_eq_append,
    e.statement_eq_append, numberAssignments_cons]
  exact fun he => e.branchText_fromSource_ne _ c.name _ (String.append_right_inj _ |>.1 he)

/-- Where no property is declared twice, the default policy stands for a specification if a stored
column is outside the key, and for doing nothing if none is. No engine writes the one as it would
write the other. -/
theorem compile_updateAll {s : Schema E} (hs : (s.columns.map (·.property)).Nodup) (rows : List E)
    {key : List String} {keys : List Column} (hk : s.resolveKeys key = .ok keys) :
    (∀ d : Dialect, (∃ c ∈ s.insertColumns, c ∉ keys) →
      d.compile ⟨s, rows, key, .updateAll⟩ =
        d.compile ⟨s, rows, key, .update (s.incomingSpec key)⟩) ∧
    (∀ d : Dialect, (∀ c ∈ s.insertColumns, c ∈ keys) →
      d.compile ⟨s, rows, key, .updateAll⟩ = d.compile ⟨s, rows, key, .doNothing⟩) ∧
    ∀ e : Engine,
      ((∃ command, e.renderer.compile ⟨s, rows, key, .updateAll⟩ = .ok command) ↔
        ∃ idle, e.renderer.compile ⟨s, rows, key, .doNothing⟩ = .ok idle) ∧
      ∀ command idle, e.renderer.compile ⟨s, rows, key, .updateAll⟩ = .ok command →
        e.renderer.compile ⟨s, rows, key, .doNothing⟩ = .ok idle →
        (command.sql = idle.sql ↔ ∀ c ∈ s.insertColumns, c ∈ keys) := by
  have same (d : Dialect) (h : ∀ c ∈ s.insertColumns, c ∈ keys) :
      d.compile ⟨s, rows, key, .updateAll⟩ = d.compile ⟨s, rows, key, .doNothing⟩ :=
    d.compile_of_analyze rows hk (congrArg Except.ok (Schema.defaultAssignments_eq_nil h))
  refine ⟨fun d h => ?_, same, fun e => ⟨?_, fun command idle hc hi => ⟨fun h => ?_, fun h => ?_⟩⟩⟩
  · exact d.compile_of_analyze rows hk (Schema.analyze_incomingSpec hs hk h).symm
  · rw [e.renderer.exists_compile_of_analyze hk rfl, e.renderer.exists_compile_of_analyze hk rfl]
  · by_contra hout
    exact e.sql_updateAll_ne hk (by simpa using hout) hc hi h
  · rw [same _ h, hi] at hc
    rw [Except.ok.inj hc]

/-- With pages for a key the counts are left to update, with both for a key nothing is. -/
theorem compile_updateAll_hits :
    (∀ d : Dialect, d.compile { Request.hits with keys := ["page"], policy := .updateAll } =
      d.compile { Request.hits with
        keys := ["page"], policy := .update ⟨[("count", .source "count")]⟩ }) ∧
    (∀ d : Dialect, d.compile { Request.hits with
        keys := ["count", "page"], policy := .updateAll } =
      d.compile { Request.hits with keys := ["count", "page"], policy := .doNothing }) ∧
    ∃ command idle,
      Dialect.mysql.compile { Request.hits with keys := ["page"], policy := .updateAll } =
        .ok command ∧
      Dialect.mysql.compile { Request.hits with keys := ["page"], policy := .doNothing } =
        .ok idle ∧ command.sql ≠ idle.sql := by
  have hs : (Request.hits.schema.columns.map (·.property)).Nodup := by decide
  have hpage := compile_updateAll hs Request.hits.rows
    (show Request.hits.schema.resolveKeys ["page"] = .ok _ from rfl)
  have hboth := compile_updateAll hs Request.hits.rows
    (show Request.hits.schema.resolveKeys ["count", "page"] = .ok _ from rfl)
  have hout : ∃ c ∈ Request.hits.schema.insertColumns, c ∉ [⟨"page", "page", false⟩] := by decide
  refine ⟨fun d => hpage.1 d hout, fun d => hboth.2.1 d (by decide), _, _, rfl, rfl, ?_⟩
  intro h
  exact absurd (((hpage.2.2 .mysql).2 _ _ rfl rfl).1 h) (by decide)

end UpsertSql
