import UpsertSql.Dialect.OnDuplicateKey
import UpsertSql.Proofs.Command

/-! The order in which a key is given, and how often a property is mentioned in it. Resolution goes
through the properties from the front, stops at the first that is no good and drops what it has met
before; what it ends with is settled up to its order by which properties there are. -/
namespace UpsertSql
variable {E : Type}

namespace Schema
variable {s : Schema E} {key key' : List String} {keys keys' : List Column}

/-- The default policy asks whether a column is in the key, the others ask nothing about it. -/
theorem analyze_of_mem_iff (h : ∀ c, c ∈ keys ↔ c ∈ keys') (policy : Policy) :
    s.analyze keys policy = s.analyze keys' policy := by
  cases policy with
  | updateAll => simp only [analyze, defaultAssignments, h]
  | update spec => rfl
  | doNothing => rfl

variable (h : ∀ p, p ∈ key ↔ p ∈ key')
include h

theorem exists_resolveKeys_of_mem_iff (hk : s.resolveKeys key = .ok keys) :
    ∃ keys', s.resolveKeys key' = .ok keys' := by
  obtain ⟨hne, hall⟩ := exists_resolveKeys_eq_ok.1 ⟨keys, hk⟩
  obtain ⟨p, hp⟩ := List.exists_mem_of_ne_nil key hne
  exact exists_resolveKeys_eq_ok.2
    ⟨List.ne_nil_of_mem ((h p).1 hp), fun p hp => hall p ((h p).2 hp)⟩

theorem perm_resolveKeys (hk : s.resolveKeys key = .ok keys)
    (hk' : s.resolveKeys key' = .ok keys') : keys.Perm keys' := by
  rw [List.perm_ext_iff_of_nodup (nodup_resolveKeys hk) (nodup_resolveKeys hk')]
  intro c
  simp only [mem_resolveKeys hk, mem_resolveKeys hk', h]

end Schema

namespace Request
variable {s : Schema E} {rows : List E} {policy : Policy} {key key' : List String}

/-- What is bound under two keys: the same rows and the same updates, and for a key the same
columns, each of them once. -/
structure Rekeyed (s : Schema E) (rows : List E) (policy : Policy) (key key' : List String)
    (u u' : Upsert) (parameters : List Value) : Prop where
  bound : bind ⟨s, rows, key, policy⟩ = .ok (u, parameters)
  rebound : bind ⟨s, rows, key', policy⟩ = .ok (u', parameters)
  keys : ∃ keys keys', s.resolveKeys key = .ok keys ∧ s.resolveKeys key' = .ok keys' ∧
    u.keys = keys.map (·.name) ∧ u'.keys = keys'.map (·.name) ∧
    keys.Nodup ∧ keys'.Nodup ∧ keys'.Perm keys
  others : u' = { u with keys := u'.keys }

theorem bind_of_mem_iff {u : Upsert} {parameters : List Value} (h : ∀ p, p ∈ key ↔ p ∈ key')
    (hb : bind ⟨s, rows, key, policy⟩ = .ok (u, parameters)) :
    ∃ u', Rekeyed s rows policy key key' u u' parameters := by
  obtain ⟨p, hp, hr, rfl, rfl⟩ := bind_eq_ok.1 hb
  obtain ⟨hk, ha⟩ := plan_eq_ok.1 hp
  obtain ⟨keys, hk'⟩ := Schema.exists_resolveKeys_of_mem_iff h hk
  have hperm := Schema.perm_resolveKeys h hk hk'
  have ha' : s.analyze keys policy = .ok p.assignments :=
    (Schema.analyze_of_mem_iff (fun c => hperm.symm.mem_iff) policy).trans ha
  have hp' : plan ⟨s, rows, key', policy⟩ = .ok ⟨keys, p.assignments⟩ := plan_eq_ok.2 ⟨hk', ha'⟩
  exact ⟨_, hb, bind_eq_ok.2 ⟨_, hp', hr, rfl, rfl⟩,
    ⟨p.keys, keys, hk, hk', rfl, rfl, Schema.nodup_resolveKeys hk, Schema.nodup_resolveKeys hk',
      hperm.symm⟩, rfl⟩

theorem exists_compile_of_mem_iff {d : Dialect} (h : ∀ p, p ∈ key ↔ p ∈ key')
    (hc : ∃ command, d.compile ⟨s, rows, key, policy⟩ = .ok command) :
    ∃ command, d.compile ⟨s, rows, key', policy⟩ = .ok command := by
  obtain ⟨command, hc⟩ := hc
  obtain ⟨u, hb, -⟩ := Dialect.compile_eq_ok.1 hc
  obtain ⟨u', hb'⟩ := bind_of_mem_iff h hb
  exact ⟨⟨d.statement u', _⟩, Dialect.compile_eq_ok.2 ⟨u', hb'.rebound, rfl⟩⟩

end Request

/-- Where rows are updated, the statement leaves it to the engine to find the key. -/
theorem statement_mysql_keys {u : Upsert} (h : u.updates ≠ []) (keys : List String) :
    Dialect.mysql.statement { u with keys := keys } = Dialect.mysql.statement u := by
  obtain ⟨table, rowCount, columns, _, updates⟩ := u
  cases updates with
  | nil => exact absurd rfl h
  | cons a as => rfl

/-- Two lists of the same properties are taken for a key or refused together, whatever the order and
however often a property is mentioned. What is written for the one is bound as what is written
for the other, but for the order of the key. -/
theorem compile_of_mem_iff (s : Schema E) (rows : List E) (policy : Policy)
    {key key' : List String} (h : ∀ p, p ∈ key ↔ p ∈ key') :
    (∀ d : Dialect, (∃ command, d.compile ⟨s, rows, key, policy⟩ = .ok command) ↔
      ∃ command, d.compile ⟨s, rows, key', policy⟩ = .ok command) ∧
    ∀ (d : Dialect) (command command' : Command),
      d.compile ⟨s, rows, key, policy⟩ = .ok command →
      d.compile ⟨s, rows, key', policy⟩ = .ok command' →
      command'.parameters = command.parameters ∧
      ∃ u u', Request.Rekeyed s rows policy key key' u u' command.parameters ∧
        command.sql = d.statement u ∧ command'.sql = d.statement u' ∧
        (d = .mysql → u.updates ≠ [] → command'.sql = command.sql) := by
  refine ⟨fun d => ⟨Request.exists_compile_of_mem_iff h,
    Request.exists_compile_of_mem_iff fun p => (h p).symm⟩, fun d command command' hc hc' => ?_⟩
  obtain ⟨u, hb, hs⟩ := Dialect.compile_eq_ok.1 hc
  obtain ⟨v, hv, hs'⟩ := Dialect.compile_eq_ok.1 hc'
  obtain ⟨u', hu⟩ := Request.bind_of_mem_iff h hb
  obtain ⟨rfl, hps⟩ : u' = v ∧ command.parameters = command'.parameters := by
    simpa using hu.rebound.symm.trans hv
  refine ⟨hps.symm, u, u', hu, hs, hs', ?_⟩
  rintro rfl hne
  rw [hs, hs', hu.others, statement_mysql_keys hne]

/-- Hits are recognised by both of their stored columns, one of which is mentioned twice. -/
theorem compile_of_mem_iff_hits :
    (∀ p, p ∈ ["page", "count", "page"] ↔ p ∈ ["count", "page"]) ∧
    ∃ command command',
      Dialect.mysql.compile { Request.hits with keys := ["page", "count", "page"] } =
        .ok command ∧
      Dialect.mysql.compile { Request.hits with keys := ["count", "page"] } = .ok command' ∧
      command'.parameters = command.parameters ∧ command'.sql = command.sql := by
  have h (p : String) : p ∈ ["page", "count", "page"] ↔ p ∈ ["count", "page"] := by
    simp only [List.mem_cons, List.not_mem_nil, or_false]
    tauto
  obtain ⟨hps, u, u', hu, -, -, hs⟩ := (compile_of_mem_iff Request.hits.schema Request.hits.rows
    Request.hits.policy h).2 .mysql _ _ rfl rfl
  refine ⟨h, _, _, rfl, rfl, hps, hs rfl ?_⟩
  cases hu.bound
  exact List.cons_ne_nil _ _

end UpsertSql
