import UpsertSql.Meaning.RowUpdate
import UpsertSql.Proofs.Dialect.Branch
import UpsertSql.Proofs.Meaning.Preservation
import UpsertSql.Proofs.SingleWrite

/-! Updates made in turn and updates made at once. One engine writes the existing row column by
column and reads from it what it has just written; the others read the row as it was. Where nothing
is read after it was written, the two make the same row. -/
namespace UpsertSql

namespace Row
variable (row : Row) (v : Value)

theorem set_self (name : String) : row.set name v name = v := if_pos rfl

theorem set_of_ne {name other : String} (h : other ≠ name) : row.set name v other = row other :=
  if_neg h

/-- Writing what is there changes nothing. -/
theorem set_read (name : String) : row.set name (row name) = row := by
  funext other
  by_cases h : other = name
  · rw [h, set_self]
  · rw [set_of_ne row _ h]

end Row

namespace Assignment

/-- The assignment reads the existing row under the name. -/
def ReadsExisting (a : BoundAssignment) (name : String) : Prop :=
  .column name .target ∈ a.formula.operands

instance (a : BoundAssignment) (name : String) : Decidable (a.ReadsExisting name) :=
  inferInstanceAs (Decidable (_ ∈ _))

/-- The column keeps what it holds. -/
def keeping (name : String) : BoundAssignment := ⟨name, .single (.column name .target)⟩

/-- Of the existing row only what is read matters. -/
theorem evalBound_congr {a : BoundAssignment} (I : Arithmetic) (ps : List Value) (source : Row)
    {row row' : Row} (h : ∀ name, a.ReadsExisting name → row name = row' name) :
    a.evalBound I ps ⟨source, row⟩ = a.evalBound I ps ⟨source, row'⟩ := by
  have operand (o : Operand Nat String) (ho : o ∈ a.formula.operands) :
      o.eval (fun i => ps.getD i .null) id ⟨source, row⟩ =
        o.eval (fun i => ps.getD i .null) id ⟨source, row'⟩ := by
    cases o with
    | constant i => rfl
    | column name side =>
      cases side with
      | source => rfl
      | target => exact h name ho
  unfold evalBound
  generalize a.formula = e at operand
  cases e with
  | single o => exact operand o List.mem_cons_self
  | arith op l r =>
    have hl := operand l List.mem_cons_self
    have hr := operand r (List.mem_cons_of_mem _ List.mem_cons_self)
    rw [Formula.eval, Formula.eval, hl, hr]

end Assignment

/-- No assignment reads from the existing row what one before it has written. It may read the column
that it writes itself. -/
def ReadFirst (as : List BoundAssignment) : Prop :=
  as.Pairwise fun a b => ¬ b.ReadsExisting a.column

instance (as : List BoundAssignment) : Decidable (ReadFirst as) :=
  inferInstanceAs (Decidable (as.Pairwise _))

namespace Meeting
variable (I : Arithmetic) (ps : List Value) (m : Meeting)

/-- The row holds what the assignments say, read from the row as it was, and is otherwise as it
was. -/
structure Becomes (as : List BoundAssignment) (row : Row) : Prop where
  written : ∀ a ∈ as, row a.column = a.evalBound I ps m
  kept : ∀ name, name ∉ as.map (·.column) → row name = m.target name

/-- Assignments that are still to be made read nothing that was written, so they write what they
would have written to the row as it was. -/
theorem foldl_inTurn {as : List BoundAssignment} (h : ReadFirst as) {row : Row}
    (hrow : ∀ a ∈ as, ∀ name, a.ReadsExisting name → row name = m.target name) :
    as.foldl (fun row a => row.set a.column (a.evalBound I ps { m with target := row })) row =
      as.foldl (fun row a => row.set a.column (a.evalBound I ps m)) row := by
  induction as generalizing row with
  | nil => rfl
  | cons a as ih =>
    obtain ⟨ha, has⟩ := List.pairwise_cons.1 h
    have hv : a.evalBound I ps { m with target := row } = a.evalBound I ps m :=
      Assignment.evalBound_congr I ps m.source (hrow a List.mem_cons_self)
    rw [List.foldl_cons, List.foldl_cons, hv]
    apply ih has
    intro b hb name hread
    have hne : name ≠ a.column := by
      intro he
      exact ha b hb (he ▸ hread)
    rw [Row.set_of_ne row _ hne]
    exact hrow b (List.mem_cons_of_mem a hb) name hread

theorem updateInTurn_eq {as : List BoundAssignment} (h : ReadFirst as) :
    m.updateInTurn I ps as = m.updateAtOnce I ps as :=
  foldl_inTurn I ps m h fun _ _ _ _ => rfl

theorem foldl_kept (as : List BoundAssignment) (row : Row) {name : String}
    (h : name ∉ as.map (·.column)) :
    as.foldl (fun row a => row.set a.column (a.evalBound I ps m)) row name = row name := by
  induction as generalizing row with
  | nil => rfl
  | cons a as ih =>
    rw [List.map_cons, List.mem_cons, not_or] at h
    rw [List.foldl_cons, ih _ h.2, Row.set_of_ne row _ h.1]

theorem foldl_written {as : List BoundAssignment} (h : (as.map (·.column)).Nodup) (row : Row)
    {a : BoundAssignment} (ha : a ∈ as) :
    as.foldl (fun row a => row.set a.column (a.evalBound I ps m)) row a.column =
      a.evalBound I ps m := by
  induction as generalizing row with
  | nil => cases ha
  | cons b as ih =>
    rw [List.map_cons, List.nodup_cons] at h
    rw [List.foldl_cons]
    cases ha with
    | head => rw [foldl_kept I ps m as _ h.1, Row.set_self]
    | tail _ ha => exact ih h.2 _ ha

/-- With each column written once, it does not matter which assignment comes first. -/
theorem becomes_updateAtOnce {as : List BoundAssignment} (h : (as.map (·.column)).Nodup) :
    m.Becomes I ps as (m.updateAtOnce I ps as) where
  written _ ha := foldl_written I ps m h m.target ha
  kept _ hn := foldl_kept I ps m as m.target hn

theorem updateInTurn_keeping (name : String) :
    m.updateInTurn I ps [.keeping name] = m.target :=
  m.target.set_read name

end Meeting

namespace Engine

/-- The assignments that a statement makes. To update nothing, one engine is told to keep a key
column. -/
def made : Engine → Upsert → List BoundAssignment
  | mysql, u => if u.updates.isEmpty then (u.keys.head?.map .keeping).toList else u.updates
  | _, u => u.updates

/-- What a statement makes of the existing row. -/
def rowAfter (e : Engine) (I : Arithmetic) (ps : List Value) (m : Meeting) (u : Upsert) : Row :=
  match e with
  | mysql => m.updateInTurn I ps (mysql.made u)
  | _ => m.updateAtOnce I ps (e.made u)

variable (e : Engine)

theorem made_of_ne_nil {u : Upsert} (h : u.updates ≠ []) : e.made u = u.updates := by
  cases e with
  | mysql =>
    have hu : u.updates.isEmpty = false := by simpa using h
    rw [made, hu]
    rfl
  | _ => rfl

/-- The assignments stand in the text in the order in which they are made. -/
theorem branch_eq_made {u : Upsert} (h : e.made u ≠ []) :
    e.branch u.keys u.updates =
      .word e.updateWord :: e.renderer.assignmentList (e.made u) ++ e.closing := by
  obtain ⟨t, n, cs, ks, as⟩ := u
  cases as with
  | cons a as =>
    rw [e.made_of_ne_nil (List.cons_ne_nil a as)]
    exact e.branch_cons ks a as
  | nil =>
    cases e with
    | mysql =>
      cases ks with
      | nil => exact absurd rfl h
      | cons k ks => rfl
    | _ => exact absurd rfl h

theorem statement_eq_made {u : Upsert} (h : e.made u ≠ []) :
    e.renderer.statement u =
      e.openingText u.table u.rowCount u.columns (e.statedKeys u.keys) ++
        e.renderer.write
          (.word e.updateWord :: e.renderer.assignmentList (e.made u) ++ e.closing) := by
  rw [e.statement_eq_append, branchText, e.branch_eq_made h]

variable (I : Arithmetic) (ps : List Value) (m : Meeting) {u : Upsert}

theorem rowAfter_of_updates_nil (h : u.updates = []) : e.rowAfter I ps m u = m.target := by
  obtain ⟨t, n, cs, ks, as⟩ := u
  obtain rfl : as = [] := h
  cases e with
  | mysql =>
    cases ks with
    | nil => rfl
    | cons k ks => exact m.updateInTurn_keeping I ps k
  | _ => rfl

theorem rowAfter_of_readFirst (h : ReadFirst u.updates) :
    e.rowAfter I ps m u = m.updateAtOnce I ps u.updates := by
  by_cases hu : u.updates = []
  · rw [e.rowAfter_of_updates_nil I ps m hu, hu]
    rfl
  · cases e with
    | mysql =>
      rw [rowAfter, mysql.made_of_ne_nil hu]
      exact m.updateInTurn_eq I ps h
    | _ => rfl

end Engine

namespace Request
variable {E : Type} {r : Request E} {u : Upsert} {parameters : List Value}

/-- Incoming values are written, and the existing row is not read at all. -/
theorem readFirst_of_updateAll (h : r.bind = .ok (u, parameters)) (hp : r.policy = .updateAll) :
    ReadFirst u.updates := by
  obtain ⟨p, hplan, -, rfl, -⟩ := bind_eq_ok.1 h
  have ha := (plan_eq_ok.1 hplan).2
  rw [hp] at ha
  have hd : r.schema.defaultAssignments p.keys = p.assignments := Except.ok.inj ha
  show ReadFirst (numberAssignments r.rowParameters p.assignments).2
  rw [← hd, Schema.defaultAssignments, numberAssignments_fromSource, ReadFirst, List.pairwise_map]
  refine List.pairwise_of_forall fun c d => ?_
  simp [Assignment.ReadsExisting, Assignment.fromSource, Formula.operands]

theorem exists_key_of_bind (h : r.bind = .ok (u, parameters)) : ∃ k, u.keys.head? = some k := by
  cases hk : u.keys with
  | nil => exact absurd hk (wellScoped_of_bind h).keys
  | cons k ks => exact ⟨k, rfl⟩

end Request

/-- Where each storage name is assigned once and none is read after it was assigned, all engines make
the same row of an existing one, though one of them goes from assignment to assignment. Under the
default policy that is so wherever storage names are apart. Where nothing is updated every row
stays, also where a key column is assigned. What an engine assigns it is told in that order. -/
theorem engines_update_alike {E : Type} {r : Request E} {u : Upsert} {parameters : List Value}
    (h : r.bind = .ok (u, parameters)) :
    ((u.updates.map (·.column)).Nodup → ReadFirst u.updates →
      ∀ (I : Arithmetic) (ps : List Value) (m : Meeting),
        m.updateInTurn I ps u.updates = m.updateAtOnce I ps u.updates ∧
        m.Becomes I ps u.updates (m.updateAtOnce I ps u.updates) ∧
        ∀ e : Engine, e.rowAfter I ps m u = m.updateAtOnce I ps u.updates) ∧
    (r.policy = .updateAll → r.schema.StoredApart →
      (u.updates.map (·.column)).Nodup ∧ ReadFirst u.updates) ∧
    (u.updates = [] →
      (∃ k, u.keys.head? = some k ∧ Engine.mysql.made u = [.keeping k]) ∧
      ∀ (e : Engine) (I : Arithmetic) (ps : List Value) (m : Meeting),
        e.rowAfter I ps m u = m.target) ∧
    ∀ e : Engine, e.made u ≠ [] →
      e.renderer.statement u =
        e.openingText u.table u.rowCount u.columns (e.statedKeys u.keys) ++
          e.renderer.write
            (.word e.updateWord :: e.renderer.assignmentList (e.made u) ++ e.closing) := by
  refine ⟨?_, ?_, ?_, fun e => e.statement_eq_made⟩
  · intro hn hread I ps m
    exact ⟨m.updateInTurn_eq I ps hread, m.becomes_updateAtOnce I ps hn,
      fun e => e.rowAfter_of_readFirst I ps m hread⟩
  · intro hp hs
    exact ⟨Request.nodup_of_bind hs h, Request.readFirst_of_updateAll h hp⟩
  · intro hu
    obtain ⟨k, hk⟩ := Request.exists_key_of_bind h
    refine ⟨⟨k, hk, ?_⟩, fun e I ps m => e.rowAfter_of_updates_nil I ps m hu⟩
    rw [Engine.made, hu, hk]
    rfl

/-- Counts are added up, each read by the assignment that writes it. -/
theorem engines_update_alike_hits :
    ∃ u parameters, Request.hits.bind = .ok (u, parameters) ∧
      (u.updates.map (·.column)).Nodup ∧ ReadFirst u.updates ∧
      ∀ I m, Engine.mysql.rowAfter I parameters m u = Engine.postgres.rowAfter I parameters m u := by
  obtain ⟨halike, -⟩ := engines_update_alike (show Request.hits.bind = .ok _ from rfl)
  refine ⟨_, _, rfl, by decide, by decide, fun I m => ?_⟩
  obtain ⟨-, -, he⟩ := halike (by decide) (by decide) I _ m
  exact (he .mysql).trans (he .postgres).symm

/-- What is read after it was written is what was written: there the engines part. -/
example (I : Arithmetic) (ps : List Value) (m : Meeting) :
    m.updateInTurn I ps [.fromSource "a", ⟨"b", .single (.column "a" .target)⟩] "b" =
        m.source "a" ∧
      m.updateAtOnce I ps [.fromSource "a", ⟨"b", .single (.column "a" .target)⟩] "b" =
        m.target "a" :=
  ⟨rfl, rfl⟩

end UpsertSql
