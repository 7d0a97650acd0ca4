import UpsertSql.Proofs.Dialect.Decoding
import UpsertSql.Proofs.Dialect.Placeholders

/-! What the text of a statement says about the upsert it was written for: all of it where
parameters are numbered, and all but the key where they are not and the numbers are the ones binding
gives. -/
namespace UpsertSql
open Piece

namespace Engine

theorem decodes_operand (e : Engine) :
    Decodes (fun a => reading (e.renderer.operand a)) (fun _ => True) := by
  intro a b r s _ _ h
  cases a with
  | constant i =>
    cases b with
    | constant j =>
      obtain ⟨rfl, rfl⟩ : i = j ∧ r = s := by simpa [Spelling.operand] using h
      exact ⟨rfl, rfl⟩
    | column c side => cases e <;> cases side <;> cases h
  | column c side =>
    cases b with
    | constant j => cases e <;> cases side <;> cases h
    | column d side' =>
      cases e <;> cases side <;> cases side' <;>
        simp_all [Spelling.operand, renderer, Dialect.postgres, Dialect.sqlite, Dialect.mysql,
          Dialect.sqlserver, Dialect.ofForm, targetAlias, sourceAlias]

/-- Where parameters are numbered, the text determines the reading. -/
theorem reading_of_statement {e : Engine} (he : e ≠ mysql) {u v : Upsert}
    (h : e.renderer.statement u = e.renderer.statement v) :
    reading (e.pieces u) = reading (e.pieces v) := by
  have hr : e.read (e.renderer.statement u) = e.read (e.renderer.statement v) := by rw [h]
  rw [read_statement, read_statement, Option.some.injEq] at hr
  exact (Token.map_injective (placeholder_injective he)).list_map hr

end Engine

/-- Counting the placeholders from left to right gives every parameter its number, also where the
text has none. -/
theorem Engine.number_read (e : Engine) {u : Upsert} (hu : u.Consecutive) :
    (e.read (e.renderer.statement u)).map (Token.number 0) = some (reading (e.pieces u)) := by
  have h := e.indices_of_consecutive hu
  rw [← placeholders_reading, List.range_eq_range'] at h
  rw [read_statement, Option.map_some, Token.number_map _ h]

/-- The text of a statement with numbered parameters determines the upsert. -/
theorem statement_injective :
    Function.Injective Dialect.postgres.statement ∧
      Function.Injective Dialect.sqlite.statement ∧
      Function.Injective Dialect.sqlserver.statement := by
  refine ⟨fun u v h => ?_, fun u v h => ?_, fun u v h => ?_⟩
  · exact Spelling.reading_onConflict_injective Engine.postgres.decodes_operand
      (Engine.reading_of_statement (e := .postgres) (by decide) h)
  · exact Spelling.reading_onConflict_injective Engine.sqlite.decodes_operand
      (Engine.reading_of_statement (e := .sqlite) (by decide) h)
  · exact Spelling.reading_merge_injective Engine.sqlserver.decodes_operand
      (Engine.reading_of_statement (e := .sqlserver) (by decide) h)

/-- Where rows are updated and the constants are numbered in their order, a statement without
numbers loses nothing but the key: its placeholders can be counted, and its text determines the
upsert. -/
theorem statement_mysql_determines {u v : Upsert} (hu : u.updates ≠ []) (hv : v.updates ≠ [])
    (cu : u.Consecutive) (cv : v.Consecutive)
    (h : Dialect.mysql.statement u = Dialect.mysql.statement v) :
    (Engine.mysql.read (Dialect.mysql.statement u)).map (Token.number 0) =
        some (reading (Engine.mysql.pieces u)) ∧
      u.table = v.table ∧ u.rowCount = v.rowCount ∧ u.columns = v.columns ∧
      u.updates = v.updates := by
  have hn := Engine.mysql.number_read cu
  refine ⟨hn, ?_⟩
  have hr : some (reading (Engine.mysql.pieces u)) = some (reading (Engine.mysql.pieces v)) := by
    rw [← hn, ← Engine.mysql.number_read cv]
    exact congrArg (fun text => (Engine.mysql.read text).map (Token.number 0)) h
  exact Spelling.reading_onDuplicateKey Engine.mysql.decodes_operand hu hv (Option.some.inj hr)

/-- Two keys for one update of counted hits. -/
def Upsert.hits (keys : List String) : Upsert where
  table := { name := "hits", qualifier := some "a\x60.\x60b" }
  rowCount := 2
  columns := ["page", "n\x60 = ?"]
  keys := keys
  updates := [⟨"n\x60 = ?", .arith .mul (.column "n\x60 = ?" .target) (.constant 4)⟩,
    ⟨"page", .arith .add (.constant 5) (.column "page" .source)⟩]

theorem Upsert.consecutive_hits (keys : List String) : (Upsert.hits keys).Consecutive := by
  unfold Consecutive
  rfl

theorem statement_mysql_hits :
    Dialect.mysql.statement (.hits ["page"]) = Dialect.mysql.statement (.hits ["page", "id"]) ∧
      (Upsert.hits ["page"]).updates = (Upsert.hits ["page", "id"]).updates := by
  have hu (keys : List String) : (Upsert.hits keys).updates ≠ [] := List.cons_ne_nil _ _
  have h := statement_mysql_determines (hu ["page"]) (hu ["page", "id"])
    (Upsert.consecutive_hits _) (Upsert.consecutive_hits _) rfl
  exact ⟨rfl, h.2.2.2.2⟩

end UpsertSql
