import UpsertSql.Dialect.OnConflict
import UpsertSql.Proofs.Scope
import UpsertSql.Proofs.Violations

/-! How often an update writes a storage column. Analysis tells columns apart by all they are
declared with, so nothing keeps two properties of one storage name from both being written, and
nothing keeps the default policy from writing the name of a key. Where stored columns have storage
names of their own, neither happens. -/
namespace UpsertSql
variable {E : Type}

namespace Schema
variable {s : Schema E}

/-- No two stored columns go by the same storage name. -/
def StoredApart (s : Schema E) : Prop := (s.insertColumns.map (·.name)).Nodup

theorem StoredApart.eq_of_name {c d : Column} (h : s.StoredApart) (hc : c ∈ s.insertColumns)
    (hd : d ∈ s.insertColumns) (hn : c.name = d.name) : c = d :=
  List.inj_on_of_nodup_map h hc hd hn

theorem StoredApart.nodup_of_analyze {keys : List Column} {policy : Policy}
    {as : List KnownAssignment} (hs : s.StoredApart) (h : s.analyze keys policy = .ok as) :
    ((as.map (·.column)).map (·.name)).Nodup := by
  cases policy with
  | updateAll =>
    cases h
    rw [columns_defaultAssignments]
    exact List.Nodup.sublist (List.filter_sublist.map Column.name) hs
  | update spec =>
    have hn : (as.map (·.column)).Nodup := (analyze_update_eq_ok.1 h).2.2
    have hin : ∀ c ∈ as.map (·.column), c ∈ s.insertColumns :=
      List.forall_mem_map.2 fun a ha => (analyze_scoped h a ha).assigned
    exact hn.map_on fun c hc d hd => hs.eq_of_name (hin c hc) (hin d hd)
  | doNothing =>
    cases h
    exact List.nodup_nil

theorem analyze_update {l : List (String × Expr)} (h : l ≠ []) (keys : List Column) :
    s.analyze keys (.update ⟨l⟩) = s.explicitAssignments [] l := by
  cases l with
  | nil => exact absurd rfl h
  | cons pe l => rfl

/-- What is accepted is passed over until an assignment is refused. -/
theorem explicitAssignments_refused {earlier later : List (String × Expr)} {taken : List Column}
    {as : List KnownAssignment} {property : String} {e : Expr} {f : Failure}
    (h : s.explicitAssignments taken earlier = .ok as)
    (hf : s.resolveAssigned ((as.map (·.column)).reverse ++ taken) property = .error f) :
    s.explicitAssignments taken (earlier ++ (property, e) :: later) = .error f := by
  induction earlier generalizing taken as with
  | nil =>
    cases h
    rw [List.map_nil, List.reverse_nil, List.nil_append] at hf
    rw [List.nil_append, explicitAssignments, hf]
    rfl
  | cons pe earlier ih =>
    obtain ⟨p, e'⟩ := pe
    simp only [explicitAssignments, bind_ok_iff] at h
    obtain ⟨c, hc, g, hg, bs, hb, ⟨⟩⟩ := h
    have hl := ih hb (by simpa using hf)
    rw [List.cons_append, explicitAssignments, hc, hg]
    show (do return Assignment.mk c g :: (← s.explicitAssignments (c :: taken) _)) = _
    rw [hl]
    rfl

/-- A column of the same name as one that is taken is refused: if it is stored, it is that one. -/
theorem StoredApart.refuses {taken : List Column} {property : String} {c : Column}
    (hs : s.StoredApart) (ht : ∀ d ∈ taken, d ∈ s.insertColumns) (hc : s.find? property = some c)
    (hn : c.name ∈ taken.map (·.name)) :
    ∃ fault, s.resolveAssigned taken property = .error (.malformedUpdate fault) := by
  have hr : s.resolve property = .ok c := resolve_eq_ok.2 hc
  unfold resolveAssigned
  rw [hr]
  by_cases hg : c.generated
  · exact ⟨.assignsGenerated c.name, if_pos hg⟩
  · obtain ⟨d, hd, hdn⟩ := List.mem_map.1 hn
    have hin : c ∈ s.insertColumns :=
      mem_insertColumns.2 ⟨mem_columns_of_find? hc, by simpa using hg⟩
    obtain rfl : d = c := hs.eq_of_name (ht d hd) hin hdn
    exact ⟨.assignsTwice d.name, (if_neg hg).trans (if_pos hd)⟩

end Schema

namespace Request
variable {r : Request E} {u : Upsert} {parameters : List Value}

theorem assigned_of_bind (h : r.bind = .ok (u, parameters)) :
    ∃ p, r.plan = .ok p ∧ u.keys = p.keys.map (·.name) ∧
      u.updates.map (·.column) = (p.assignments.map (·.column)).map (·.name) := by
  obtain ⟨p, hp, -, rfl, -⟩ := bind_eq_ok.1 h
  refine ⟨p, hp, rfl, ?_⟩
  rw [List.map_map]
  exact numberAssignments_columns _ _

theorem nodup_of_bind (hs : r.schema.StoredApart) (h : r.bind = .ok (u, parameters)) :
    (u.updates.map (·.column)).Nodup := by
  obtain ⟨p, hp, -, hu⟩ := assigned_of_bind h
  rw [hu]
  exact hs.nodup_of_analyze (plan_eq_ok.1 hp).2

/-- A stored column outside the key differs from each key column, so it differs in name. -/
theorem keys_kept_of_bind (hs : r.schema.StoredApart) (h : r.bind = .ok (u, parameters))
    (hu : r.policy = .updateAll) : ∀ name ∈ u.updates.map (·.column), name ∉ u.keys := by
  obtain ⟨p, hp, hk, hc⟩ := assigned_of_bind h
  obtain ⟨hkeys, ha⟩ := plan_eq_ok.1 hp
  rw [hu] at ha
  have hd : r.schema.defaultAssignments p.keys = p.assignments := Except.ok.inj ha
  rw [← hd, Schema.columns_defaultAssignments] at hc
  rw [hc, hk]
  refine List.forall_mem_map.2 fun c hc hm => ?_
  obtain ⟨hin, hout⟩ := List.mem_filter.1 hc
  obtain ⟨k, hk, hkn⟩ := List.mem_map.1 hm
  obtain rfl : k = c := hs.eq_of_name (Schema.insertColumns_of_resolveKeys hkeys hk) hin hkn
  simp [hk] at hout

/-- If the request is in order up to an assignment, and that one leads to a storage name that is
written already, then it is what the request is refused for. -/
theorem refused_of_name_taken (hs : r.schema.StoredApart) {earlier later : List (String × Expr)}
    {property : String} {e : Expr} {p : Plan} {c : Column}
    (hr : r.policy = .update ⟨earlier ++ (property, e) :: later⟩)
    (hp : { r with policy := .update ⟨earlier⟩ }.plan = .ok p)
    (hc : r.schema.find? property = some c)
    (hn : c.name ∈ (p.assignments.map (·.column)).map (·.name)) :
    ∃ fault, ∀ d : Dialect, d.compile r = .error (.malformedUpdate fault) := by
  obtain ⟨hk, ha⟩ := plan_eq_ok.1 hp
  have hne : earlier ≠ [] := (Schema.analyze_update_eq_ok.1 ha).1
  have hin : ∀ d ∈ (p.assignments.map (·.column)).reverse, d ∈ r.schema.insertColumns := by
    intro d hd
    obtain ⟨a, h, rfl⟩ := List.mem_map.1 (List.mem_reverse.1 hd)
    exact (Schema.analyze_scoped ha a h).assigned
  obtain ⟨fault, hf⟩ := hs.refuses hin hc (by simpa using hn)
  rw [Schema.analyze_update hne] at ha
  have hall : r.schema.analyze p.keys r.policy = .error (.malformedUpdate fault) := by
    rw [hr, Schema.analyze_update (by simp)]
    exact Schema.explicitAssignments_refused ha (by rwa [List.append_nil])
  have hplan : r.plan = .error (.malformedUpdate fault) := by
    rw [plan_of_resolveKeys (show r.schema.resolveKeys r.keys = .ok p.keys from hk), hall]
    rfl
  exact ⟨fault, fun d => compile_of_plan_error d hplan⟩

end Request

/-- Where storage names are apart, an update writes each of them once at most and the default policy
writes none of a key. An assignment that would write one again is refused. -/
theorem storage_written_once (r : Request E) (hs : r.schema.StoredApart) :
    (∀ u parameters, r.bind = .ok (u, parameters) →
      (u.updates.map (·.column)).Nodup ∧
        (r.policy = .updateAll → ∀ name ∈ u.updates.map (·.column), name ∉ u.keys)) ∧
    ∀ earlier property e later p c,
      r.policy = .update ⟨earlier ++ (property, e) :: later⟩ →
      { r with policy := .update ⟨earlier⟩ }.plan = .ok p →
      r.schema.find? property = some c →
      c.name ∈ (p.assignments.map (·.column)).map (·.name) →
      ∃ fault, ∀ d : Dialect, d.compile r = .error (.malformedUpdate fault) := by
  constructor
  · intro u parameters h
    exact ⟨Request.nodup_of_bind hs h, Request.keys_kept_of_bind hs h⟩
  · intro earlier property e later p c hr hp hc hn
    exact Request.refused_of_name_taken hs hr hp hc hn

/-- Pages are written, then counted, then written again. -/
def Request.hitsAgain : Request (String × Int64) :=
  { Request.hits with
    policy := .update ⟨[("page", .source "page"), ("count", .target "count"),
      ("page", .value (.text "seen")), ("day", .value .null)]⟩ }

theorem storage_written_once_hits :
    Request.hits.schema.StoredApart ∧
      (∃ u parameters, Request.hits.bind = .ok (u, parameters) ∧
        (u.updates.map (·.column)).Nodup) ∧
      ∃ fault, Dialect.postgres.compile .hitsAgain = .error (.malformedUpdate fault) := by
  have h : Request.hits.schema.StoredApart := by
    unfold Schema.StoredApart
    decide
  obtain ⟨fault, hf⟩ := (storage_written_once .hitsAgain h).2
    [("page", .source "page"), ("count", .target "count")] "page" _ _ _ _ rfl rfl rfl (by decide)
  exact ⟨h, ⟨_, _, rfl, ((storage_written_once .hits h).1 _ _ rfl).1⟩, fault, hf _⟩

/-- Books under a schema that keeps two properties in one column. -/
def Request.books (keys : List String) (policy : Policy) : Request (Int64 × String) where
  schema := (((Schema.ofTable "books").stored "id" fun e => .int e.1).stored
    "name" fun e => .text e.2).storedAs "title" "name" fun e => .text e.2
  rows := [(1, "a")]
  keys := keys
  policy := policy

/-- The storage name is written twice, by a specification and by default, and it is written when it
is the key. -/
theorem shared_storage_written_twice :
    (∃ u parameters, (Request.books ["id"] (.update ⟨[("name", .source "name"),
        ("title", .source "title")]⟩)).bind = .ok (u, parameters) ∧
      ¬ (u.updates.map (·.column)).Nodup) ∧
    (∃ u parameters, (Request.books ["id"] .updateAll).bind = .ok (u, parameters) ∧
      ¬ (u.updates.map (·.column)).Nodup) ∧
    ∃ u parameters, (Request.books ["name"] .updateAll).bind = .ok (u, parameters) ∧
      "name" ∈ u.updates.map (·.column) ∧ "name" ∈ u.keys :=
  ⟨⟨_, _, rfl, by decide⟩, ⟨_, _, rfl, by decide⟩, _, _, rfl, by decide, by decide⟩

/-- Nothing less will do where each property is declared once: of two stored columns with the same
name, the one is written when the other is the key. -/
theorem storedApart_of_keys_kept {s : Schema E} (hp : (s.columns.map (·.property)).Nodup) (e : E)
    (h : ∀ keys u parameters, Request.bind ⟨s, [e], keys, .updateAll⟩ = .ok (u, parameters) →
      ∀ name ∈ u.updates.map (·.column), name ∉ u.keys) : s.StoredApart := by
  refine (Schema.nodup_insertColumns hp).map_on fun c hc d hd he => ?_
  by_contra hcd
  have hf := Schema.find?_property hp (Schema.mem_insertColumns.1 hc).1
  have hk : s.resolveKeys [c.property] = .ok [c] :=
    Schema.resolveKeys_eq_ok.2 ⟨List.cons_ne_nil _ _, [c],
      .cons ⟨hf, (Schema.mem_insertColumns.1 hc).2⟩ .nil, rfl⟩
  have hplan : Request.plan ⟨s, [e], [c.property], .updateAll⟩ =
      .ok ⟨[c], s.defaultAssignments [c]⟩ := Request.plan_eq_ok.2 ⟨hk, rfl⟩
  have hb := Request.bind_eq_ok.2 ⟨_, hplan, List.cons_ne_nil _ _, rfl, rfl⟩
  refine h _ _ _ hb d.name ?_ ?_
  · obtain ⟨p, hp', -, hu⟩ := Request.assigned_of_bind hb
    obtain rfl := Except.ok.inj (hplan.symm.trans hp')
    rw [hu, Schema.columns_defaultAssignments]
    exact List.mem_map_of_mem (List.mem_filter.2 ⟨hd, by simpa using Ne.symm hcd⟩)
  · exact List.mem_singleton.2 he.symm

end UpsertSql
