import UpsertSql.Command
import UpsertSql.Proofs.Assignment.Analysis
import UpsertSql.Proofs.Assignment.Binding

/-! What a dialect is handed when a request can be compiled. -/
namespace UpsertSql
variable {E : Type}

namespace Request
variable {r : Request E}

theorem plan_eq_ok {p : Plan} :
    r.plan = .ok p ↔
      r.schema.resolveKeys r.keys = .ok p.keys ∧
        r.schema.analyze p.keys r.policy = .ok p.assignments := by
  simp only [plan, bind_ok_iff]
  constructor
  · intro h
    obtain ⟨keys, hk, as, ha, ⟨⟩⟩ := h
    exact ⟨hk, ha⟩
  · intro h
    exact ⟨p.keys, h.1, p.assignments, h.2, rfl⟩

theorem plan_of_resolveKeys {keys : List Column} (hk : r.schema.resolveKeys r.keys = .ok keys) :
    r.plan = (r.schema.analyze keys r.policy).map (Plan.mk keys) := by
  rw [plan, hk]
  show (do return Plan.mk keys (← r.schema.analyze keys r.policy)) = _
  cases r.schema.analyze keys r.policy <;> rfl

/-- How many parameters the rows take. The constants of the updates come after them. -/
def rowParameters (r : Request E) : Nat := r.rows.length * r.schema.insertColumns.length

theorem bind_eq_ok {u : Upsert} {parameters : List Value} :
    r.bind = .ok (u, parameters) ↔ ∃ p, r.plan = .ok p ∧ r.rows ≠ [] ∧
      u = r.upsert p (numberAssignments r.rowParameters p.assignments).2 ∧
      parameters = r.schema.parameters r.rows p.assignments := by
  simp only [bind, bind_ok_iff, Schema.bind_eq_ok]
  constructor
  · intro h
    obtain ⟨p, hp, b, ⟨hr, rfl⟩, ⟨⟩⟩ := h
    exact ⟨p, hp, hr, rfl, rfl⟩
  · intro h
    obtain ⟨p, hp, hr, rfl, rfl⟩ := h
    exact ⟨p, hp, _, ⟨hr, rfl⟩, rfl⟩

end Request

/-- Hits of pages, counted under a name that is hard to quote and looks like a placeholder. -/
def Request.hits : Request (String × Int64) where
  schema := (((Schema.ofTable "hits").stored "page" fun e => .text e.1).storedAs
    "count" "n\"$1" fun e => .int e.2).generated "id"
  rows := [("a", 1), ("b", 2)]
  keys := ["page", "page"]
  policy := .update (((UpdateSpec.mk []).set "count" (.target "count" + .source "count")).set
    "page" (.value (.text "seen") + .source "page"))

theorem Dialect.compile_eq_ok {d : Dialect} {r : Request E} {command : Command} :
    d.compile r = .ok command ↔
      ∃ u, r.bind = .ok (u, command.parameters) ∧ command.sql = d.statement u := by
  simp only [compile, bind_ok_iff]
  constructor
  · intro h
    obtain ⟨⟨u, parameters⟩, hb, ⟨⟩⟩ := h
    exact ⟨u, hb, rfl⟩
  · intro h
    obtain ⟨u, hb, hs⟩ := h
    obtain ⟨sql, parameters⟩ := command
    obtain rfl : sql = d.statement u := hs
    exact ⟨⟨u, parameters⟩, hb, rfl⟩

theorem Dialect.sql_of_compile {d : Dialect} {r : Request E} {p : Plan} {command : Command}
    (hp : r.plan = .ok p) (h : d.compile r = .ok command) :
    command.sql =
      d.statement (r.upsert p (numberAssignments r.rowParameters p.assignments).2) := by
  obtain ⟨u, hb, hs⟩ := compile_eq_ok.1 h
  obtain ⟨q, hq, -, rfl, -⟩ := Request.bind_eq_ok.1 hb
  obtain rfl : p = q := Except.ok.inj (hp.symm.trans hq)
  exact hs

/-- Whether a request is compiled is settled by its plan and by there being rows. -/
theorem Dialect.exists_compile_eq_ok {d : Dialect} {r : Request E} :
    (∃ command, d.compile r = .ok command) ↔ (∃ p, r.plan = .ok p) ∧ r.rows ≠ [] := by
  constructor
  · intro h
    obtain ⟨command, hc⟩ := h
    obtain ⟨u, hb, -⟩ := compile_eq_ok.1 hc
    obtain ⟨p, hp, hr, -, -⟩ := Request.bind_eq_ok.1 hb
    exact ⟨⟨p, hp⟩, hr⟩
  · intro h
    obtain ⟨⟨p, hp⟩, hr⟩ := h
    have hb := Request.bind_eq_ok.2 ⟨p, hp, hr, rfl, rfl⟩
    exact ⟨⟨_, _⟩, compile_eq_ok.2 ⟨_, hb, rfl⟩⟩

theorem Dialect.exists_compile_of_analyze (d : Dialect) {s : Schema E} {rows : List E}
    {ps : List String} {keys : List Column} {policy : Policy} {as : List KnownAssignment}
    (hk : s.resolveKeys ps = .ok keys) (ha : s.analyze keys policy = .ok as) :
    (∃ command, d.compile ⟨s, rows, ps, policy⟩ = .ok command) ↔ rows ≠ [] := by
  have hp : Request.plan ⟨s, rows, ps, policy⟩ = .ok ⟨keys, as⟩ := Request.plan_eq_ok.2 ⟨hk, ha⟩
  simp only [exists_compile_eq_ok, hp, Except.ok.injEq, exists_eq', true_and]

/-- Of a policy only the assignments matter that it stands for. -/
theorem Dialect.compile_of_analyze (d : Dialect) {s : Schema E} (rows : List E) {ps : List String}
    {keys : List Column} {policy policy' : Policy} (hk : s.resolveKeys ps = .ok keys)
    (ha : s.analyze keys policy = s.analyze keys policy') :
    d.compile ⟨s, rows, ps, policy⟩ = d.compile ⟨s, rows, ps, policy'⟩ := by
  have hp : Request.plan ⟨s, rows, ps, policy⟩ = Request.plan ⟨s, rows, ps, policy'⟩ := by
    rw [Request.plan_of_resolveKeys hk, Request.plan_of_resolveKeys hk, ha]
  unfold compile Request.bind
  rw [hp]
  rfl

end UpsertSql
