import UpsertSql.Proofs.Dialect.Branch

/-! Requests that differ in their policy alone. Their statements begin alike and their parameters
begin alike; what the policies say comes after that. -/
namespace UpsertSql

/-- The text of a command is an opening and a branch, and its parameters are those of the rows and
those of the policy. The placeholders of the first stand in the opening, outside its names, and
those of the others in the branch. -/
structure Engine.Parts (e : Engine) {E : Type} (r : Request E) (opening branch : String)
    (command : Command) : Prop where
  text : command.sql = opening ++ branch
  read : ∃ ts ts', e.read opening = some ts ∧ e.read branch = some ts' ∧
    e.read command.sql = some (ts ++ ts')
  rows : e.placeholders opening = some ((List.range r.rowParameters).map e.renderer.placeholder)
  constants : e.placeholders branch =
    some ((List.range' r.rowParameters r.policy.literals.length).map e.renderer.placeholder)
  rowValues : command.parameters.take r.rowParameters = r.rows.flatMap r.schema.rowOf
  literals : command.parameters.drop r.rowParameters = r.policy.literals

namespace Request
variable {E : Type} {r : Request E}

/-- The opening is settled by the schema, the number of rows and the key. -/
theorem parts_of_compile {e : Engine} {command : Command} {keys : List Column}
    (hk : r.schema.resolveKeys r.keys = .ok keys) (h : e.renderer.compile r = .ok command) :
    ∃ u, r.bind = .ok (u, command.parameters) ∧
      e.Parts r (e.openingText r.schema.table r.rows.length (r.schema.insertColumns.map (·.name))
        (e.statedKeys (keys.map (·.name)))) (e.branchText u.keys u.updates) command := by
  obtain ⟨u, h, hs⟩ := Dialect.compile_eq_ok.1 h
  refine ⟨u, h, ?_⟩
  have hcs := constants_of_bind h
  have ho := e.legible_opening r.schema.table r.rows.length (r.schema.insertColumns.map (·.name))
    (keys.map (·.name))
  have hb := e.legible_branch u.keys u.updates
  obtain ⟨p, hp, -, rfl, hps⟩ := bind_eq_ok.1 h
  obtain ⟨hpk, ha⟩ := plan_eq_ok.1 hp
  obtain rfl : keys = p.keys := Except.ok.inj (hk.symm.trans hpk)
  constructor
  case text => rw [hs, e.statement_eq_append]; rfl
  case read =>
    refine ⟨_, _, e.read_write ho, e.read_write hb, ?_⟩
    rw [hs, e.read_statement, e.pieces_eq_append, Piece.reading_append, List.map_append]
    rfl
  case rows =>
    rw [Engine.openingText, e.placeholders_write ho, e.indices_opening, List.length_map]
    rfl
  case constants => rw [Engine.branchText, e.placeholders_write hb, e.indices_branch, hcs]
  case rowValues =>
    rw [hps]
    exact r.schema.take_parameters r.rows _
  case literals =>
    rw [hps, ← Schema.constants_eq_literals ha]
    exact r.schema.drop_parameters r.rows _

end Request

/-- If a request is compiled under one policy it is under the two that need no specification. Under
whichever policy it is compiled, the statement begins with the same text and the parameters begin
with the same values. -/
theorem compile_parts (e : Engine) {E : Type} {s : Schema E} {rows : List E} {keys : List String}
    {policy : Policy} {command : Command}
    (h : e.renderer.compile ⟨s, rows, keys, policy⟩ = .ok command) :
    (∃ c, e.renderer.compile ⟨s, rows, keys, .updateAll⟩ = .ok c) ∧
    (∃ c, e.renderer.compile ⟨s, rows, keys, .doNothing⟩ = .ok c) ∧
    ∃ ks, s.resolveKeys keys = .ok ks ∧
      ∀ policy' c, e.renderer.compile ⟨s, rows, keys, policy'⟩ = .ok c →
        c.parameters.take (rows.length * s.insertColumns.length) =
          command.parameters.take (rows.length * s.insertColumns.length) ∧
        ∃ u, Request.bind ⟨s, rows, keys, policy'⟩ = .ok (u, c.parameters) ∧
          e.Parts ⟨s, rows, keys, policy'⟩
            (e.openingText s.table rows.length (s.insertColumns.map (·.name))
              (e.statedKeys (ks.map (·.name))))
            (e.branchText u.keys u.updates) c := by
  obtain ⟨⟨p, hp⟩, hr⟩ := Dialect.exists_compile_eq_ok.1 ⟨command, h⟩
  have hk : s.resolveKeys keys = .ok p.keys := (Request.plan_eq_ok.1 hp).1
  refine ⟨(e.renderer.exists_compile_of_analyze hk rfl).2 hr,
    (e.renderer.exists_compile_of_analyze hk rfl).2 hr, p.keys, hk, fun policy' c hc => ?_⟩
  obtain ⟨_, -, hparts⟩ := Request.parts_of_compile hk h
  obtain ⟨u, hb, hparts'⟩ := Request.parts_of_compile hk hc
  exact ⟨hparts'.rowValues.trans hparts.rowValues.symm, u, hb, hparts'⟩

/-- Where nothing is updated, the literal is gone that the updates wrote. -/
theorem compile_parts_hits :
    ∃ command c, Dialect.sqlserver.compile .hits = .ok command ∧
      Dialect.sqlserver.compile { Request.hits with policy := .doNothing } = .ok c ∧
      c.parameters.take 4 = command.parameters.take 4 ∧ c.parameters.drop 4 = [] := by
  obtain ⟨-, ⟨c, hc⟩, _, -, h⟩ := compile_parts .sqlserver
    (show Engine.sqlserver.renderer.compile .hits = .ok _ from rfl)
  obtain ⟨hrows, _, -, hparts⟩ := h _ c hc
  exact ⟨_, c, rfl, hc, hrows, hparts.literals⟩

end UpsertSql
