import UpsertSql.Proofs.Command

/-! Everything that is wrong with a request, in the order in which it is looked for. A request is
compiled if nothing is, and otherwise refused with the first thing found; which that is does not
depend on the dialect. -/
namespace UpsertSql

/-- The computation goes through where nothing is listed, and fails with the first thing listed. -/
inductive Reports {ε α : Type} : Except ε α → List ε → Prop
  | ok (a : α) : Reports (.ok a) []
  | error (e : ε) (es : List ε) : Reports (.error e) (e :: es)

/-- The failure is listed where the condition holds. -/
def found {ε : Type} (p : Prop) [Decidable p] (e : ε) : List ε := if p then [e] else []

namespace Reports
variable {ε α β : Type} {x : Except ε α} {es fs : List ε}

theorem ok_iff (h : Reports x es) : (∃ a, x = .ok a) ↔ es = [] := by
  cases h with
  | ok a => simp
  | error e es => simp

theorem error_iff (h : Reports x es) {e : ε} : x = .error e ↔ es.head? = some e := by
  cases h with
  | ok a => simp
  | error f es => simp

/-- What the second step finds is listed after what the first one does. -/
theorem bind {f : α → Except ε β} (h : Reports x es) (hf : ∀ a, x = .ok a → Reports (f a) fs) :
    Reports (x >>= f) (es ++ fs) := by
  cases h with
  | ok a => exact hf a rfl
  | error e es => exact .error e (es ++ fs)

theorem map (f : α → β) (h : Reports x es) : Reports (do return f (← x)) es := by
  have hb := h.bind fun a _ => Reports.ok (f a)
  rwa [List.append_nil] at hb

theorem guard {p : Prop} [Decidable p] (e : ε) (h : Reports x es) :
    Reports (if p then .error e else x) (found p e ++ es) := by
  unfold found
  by_cases hp : p
  · rw [if_pos hp, if_pos hp]
    exact .error e es
  · rw [if_neg hp, if_neg hp]
    exact h

theorem check (p : Prop) [Decidable p] (e : ε) (a : α) :
    Reports (if p then .error e else .ok a) (found p e) := by
  have h := guard (p := p) e (Reports.ok a)
  rwa [List.append_nil] at h

theorem mapM {f : α → Except ε β} {v : α → List ε} (h : ∀ a, Reports (f a) (v a)) (l : List α) :
    Reports (l.mapM f) (l.flatMap v) := by
  induction l with
  | nil => exact .ok []
  | cons a l ih =>
    rw [List.mapM_cons, List.flatMap_cons]
    exact (h a).bind fun b _ => .map (b :: ·) ih

end Reports

variable {E : Type}

namespace Schema

/-- What is wrong with a property no column is declared with, or else with the first column that is
declared with it. -/
def lookupViolations (s : Schema E) (property : String) (v : Column → List Failure) :
    List Failure :=
  match s.columns.find? (·.property == property) with
  | none => [.unknownColumn s.table.name property]
  | some c => v c

def keyViolations (s : Schema E) (property : String) : List Failure :=
  s.lookupViolations property fun c =>
    found c.generated (.invalidKey (.generated s.table.name c.name))

def keysViolations (s : Schema E) (properties : List String) : List Failure :=
  found (properties = []) (.invalidKey (.noColumns s.table.name)) ++
    properties.flatMap s.keyViolations

def operandViolations (s : Schema E) : Expr → List Failure
  | .value _ => []
  | .property side property =>
    s.lookupViolations property fun c =>
      found (side = .source ∧ c.generated) (.malformedUpdate (.readsGenerated property c.name))
  | .binary op _ _ => [.unsupportedOperation (.nested (.operator op))]
  | .call function _ => [.unsupportedOperation (.nested (.call function))]

/-- Of an operation that is not offered the operands are not looked at. -/
def expressionViolations (s : Schema E) : Expr → List Failure
  | .binary (.arith _) l r => s.operandViolations l ++ s.operandViolations r
  | .binary op _ _ => [.unsupportedOperation (.unsupported (.operator op))]
  | .call function _ => [.unsupportedOperation (.unsupported (.call function))]
  | e => s.operandViolations e

/-- The columns assigned to before: for each earlier property the first declared with it. -/
def assigned (s : Schema E) (earlier : List String) : List Column :=
  earlier.filterMap fun property => s.columns.find? (·.property == property)

/-- What is wrong with assigning the property after the earlier ones. -/
def assigneeViolations (s : Schema E) (earlier : List String) (property : String) : List Failure :=
  s.lookupViolations property fun c =>
    found c.generated (.malformedUpdate (.assignsGenerated c.name)) ++
      found (c ∈ s.assigned earlier) (.malformedUpdate (.assignsTwice c.name))

def assignmentsViolations (s : Schema E) (earlier : List String) :
    List (String × Expr) → List Failure
  | [] => []
  | (property, e) :: rest =>
    s.assigneeViolations earlier property ++ (s.expressionViolations e ++
      s.assignmentsViolations (property :: earlier) rest)

def policyViolations (s : Schema E) : Policy → List Failure
  | .update spec =>
    found (spec.assignments = []) (.malformedUpdate .nothingAssigned) ++
      s.assignmentsViolations [] spec.assignments
  | _ => []

variable (s : Schema E)

theorem lookup_reports {α : Type} {f : Column → Except Failure α} {v : Column → List Failure}
    (h : ∀ c, Reports (f c) (v c)) (p : String) :
    Reports (s.resolve p >>= f) (s.lookupViolations p v) := by
  unfold resolve find? lookupViolations
  cases s.columns.find? (·.property == p) with
  | none => exact .error _ []
  | some c => exact h c

theorem resolveKeys_reports (ps : List String) :
    Reports (s.resolveKeys ps) (s.keysViolations ps) := by
  have hk (p : String) : Reports (s.resolveKey p) (s.keyViolations p) :=
    s.lookup_reports (fun c => .check _ _ c) p
  have hl := Reports.map List.eraseDups (Reports.mapM hk ps)
  cases ps with
  | nil => exact .error _ []
  | cons p ps => exact hl

theorem operand_reports (e : Expr) : Reports (s.operand e) (s.operandViolations e) := by
  cases e with
  | value v => exact .ok _
  | property side p => exact s.lookup_reports (fun c => .check _ _ _) p
  | binary op l r => exact .error _ []
  | call f as => exact .error _ []

theorem formula_reports (e : Expr) : Reports (s.formula e) (s.expressionViolations e) := by
  cases e with
  | value v => exact .ok _
  | property side p => exact .map Formula.single (s.operand_reports (.property side p))
  | binary op l r =>
    cases op with
    | arith op =>
      exact (s.operand_reports l).bind fun a _ => .map (Formula.arith op a) (s.operand_reports r)
    | _ => exact .error _ []
  | call f as => exact .error _ []

variable {s}

theorem assigned_cons {p : String} {c : Column} (h : s.find? p = some c) (earlier : List String) :
    s.assigned (p :: earlier) = c :: s.assigned earlier :=
  List.filterMap_cons_some (first_of_find? h)

theorem resolveAssigned_reports (earlier : List String) (p : String) :
    Reports (s.resolveAssigned (s.assigned earlier) p) (s.assigneeViolations earlier p) :=
  s.lookup_reports (fun c => .guard _ (.check _ _ c)) p

/-- The columns taken so far are those the earlier properties lead to. -/
theorem explicitAssignments_reports (l : List (String × Expr)) (earlier : List String) :
    Reports (s.explicitAssignments (s.assigned earlier) l)
      (s.assignmentsViolations earlier l) := by
  induction l generalizing earlier with
  | nil => exact .ok []
  | cons pe l ih =>
    obtain ⟨p, e⟩ := pe
    refine (resolveAssigned_reports earlier p).bind fun c hc => ?_
    have hl := ih (p :: earlier)
    rw [assigned_cons (resolveAssigned_eq_ok.1 hc).1] at hl
    exact (s.formula_reports e).bind fun f _ => .map (Assignment.mk c f :: ·) hl

theorem analyze_reports (keys : List Column) (policy : Policy) :
    Reports (s.analyze keys policy) (s.policyViolations policy) := by
  cases policy with
  | updateAll => exact .ok _
  | update spec =>
    obtain ⟨l⟩ := spec
    have h : Reports (s.explicitAssignments [] l) (s.assignmentsViolations [] l) :=
      explicitAssignments_reports l []
    cases l with
    | nil => exact .error _ []
    | cons pe l => exact h
  | doNothing => exact .ok _

end Schema

namespace Request
variable (r : Request E)

/-- What is wrong with the request whatever its rows are. -/
def planViolations : List Failure :=
  r.schema.keysViolations r.keys ++ r.schema.policyViolations r.policy

/-- Everything that is wrong: with the key, with the policy, and with the rows. -/
def violations : List Failure := r.planViolations ++ found (r.rows = []) .emptyBatch

theorem plan_reports : Reports r.plan r.planViolations :=
  (r.schema.resolveKeys_reports r.keys).bind fun keys _ =>
    .map (Plan.mk keys) (Schema.analyze_reports keys r.policy)

end Request

theorem Dialect.compile_reports (d : Dialect) (r : Request E) :
    Reports (d.compile r) r.violations := by
  have hb (p : Plan) : Reports (r.schema.bind r.rows p.assignments)
      (found (r.rows = []) .emptyBatch) := by
    cases h : r.rows with
    | nil => exact .error _ []
    | cons e rows => exact .ok _
  have hbind : Reports r.bind r.violations :=
    r.plan_reports.bind fun p _ => .map (fun b => (r.upsert p b.updates, b.parameters)) (hb p)
  exact .map (fun a => Command.mk (d.statement a.1) a.2) hbind

/-- A dialect compiles exactly the requests that nothing is wrong with, and of the others it tells
the first thing that is. -/
theorem compile_fails_with_first_violation (d : Dialect) (r : Request E) :
    ((∃ c, d.compile r = .ok c) ↔ r.violations = []) ∧
      ∀ f, d.compile r = .error f ↔ r.violations.head? = some f :=
  ⟨(d.compile_reports r).ok_iff, fun _ => (d.compile_reports r).error_iff⟩

example : Request.violations { Request.hits with
      rows := []
      keys := ["page", "id", "day"]
      policy := .update ⟨[("count", .source "id" % .source "day"), ("day", .value .null),
        ("count", .source "id" + .source "day")]⟩ } =
    [.invalidKey (.generated "hits" "id"), .unknownColumn "hits" "day",
      .unsupportedOperation (.unsupported (.operator .mod)), .unknownColumn "hits" "day",
      .malformedUpdate (.assignsTwice "n\"$1"), .malformedUpdate (.readsGenerated "id" "id"),
      .unknownColumn "hits" "day", .emptyBatch] := by
  rfl

/-- The failure is one of the key or of the policy. -/
def Failure.isOfPlan : Failure → Bool
  | .emptyBatch => false
  | .backend _ => false
  | _ => true

/-- Only the key and the policy are to blame. -/
def OfPlan (fs : List Failure) : Prop := ∀ f ∈ fs, f.isOfPlan = true

theorem ofPlan_nil : OfPlan [] := List.forall_mem_nil _

theorem ofPlan_append {fs gs : List Failure} (hf : OfPlan fs) (hg : OfPlan gs) :
    OfPlan (fs ++ gs) := List.forall_mem_append.2 ⟨hf, hg⟩

theorem ofPlan_singleton {f : Failure} (h : f.isOfPlan = true) : OfPlan [f] :=
  List.forall_mem_singleton.2 h

theorem ofPlan_found {p : Prop} [Decidable p] {f : Failure} (h : f.isOfPlan = true) :
    OfPlan (found p f) := by
  by_cases hp : p
  · simpa [found, hp] using ofPlan_singleton h
  · simpa [found, hp] using ofPlan_nil

namespace Schema
variable (s : Schema E)

theorem ofPlan_lookup (p : String) {v : Column → List Failure} (h : ∀ c, OfPlan (v c)) :
    OfPlan (s.lookupViolations p v) := by
  unfold lookupViolations
  cases s.columns.find? (·.property == p) with
  | none => exact ofPlan_singleton rfl
  | some c => exact h c

theorem ofPlan_keys (ps : List String) : OfPlan (s.keysViolations ps) := by
  refine ofPlan_append (ofPlan_found rfl) fun f hf => ?_
  obtain ⟨p, -, hf⟩ := List.mem_flatMap.1 hf
  exact s.ofPlan_lookup p (fun c => ofPlan_found rfl) f hf

theorem ofPlan_operand (e : Expr) : OfPlan (s.operandViolations e) := by
  cases e with
  | value v => exact ofPlan_nil
  | property side p => exact s.ofPlan_lookup p fun c => ofPlan_found rfl
  | binary op l r => exact ofPlan_singleton rfl
  | call g as => exact ofPlan_singleton rfl

theorem ofPlan_expression (e : Expr) : OfPlan (s.expressionViolations e) := by
  cases e with
  | value v => exact ofPlan_nil
  | property side p => exact s.ofPlan_operand (.property side p)
  | binary op l r =>
    cases op with
    | arith op => exact ofPlan_append (s.ofPlan_operand l) (s.ofPlan_operand r)
    | _ => exact ofPlan_singleton rfl
  | call g as => exact ofPlan_singleton rfl

theorem ofPlan_assignments (l : List (String × Expr)) (earlier : List String) :
    OfPlan (s.assignmentsViolations earlier l) := by
  induction l generalizing earlier with
  | nil => exact ofPlan_nil
  | cons pe l ih =>
    have hp : OfPlan (s.assigneeViolations earlier pe.1) :=
      s.ofPlan_lookup pe.1 fun c => ofPlan_append (ofPlan_found rfl) (ofPlan_found rfl)
    exact ofPlan_append hp (ofPlan_append (s.ofPlan_expression pe.2) (ih (pe.1 :: earlier)))

theorem ofPlan_policy (policy : Policy) : OfPlan (s.policyViolations policy) := by
  cases policy with
  | updateAll => exact ofPlan_nil
  | update spec => exact ofPlan_append (ofPlan_found rfl) (s.ofPlan_assignments spec.assignments [])
  | doNothing => exact ofPlan_nil

end Schema

namespace Request
variable {r : Request E} {f : Failure}

theorem ofPlan_planViolations (r : Request E) : OfPlan r.planViolations :=
  ofPlan_append (r.schema.ofPlan_keys r.keys) (r.schema.ofPlan_policy r.policy)

theorem isOfPlan_of_plan (h : r.plan = .error f) : f.isOfPlan = true :=
  r.ofPlan_planViolations f (List.mem_of_mem_head? (r.plan_reports.error_iff.1 h))

/-- The rows are looked at last. -/
theorem compile_of_plan_error (d : Dialect) (h : r.plan = .error f) : d.compile r = .error f := by
  have hp : r.planViolations.head? = some f := r.plan_reports.error_iff.1 h
  refine (d.compile_reports r).error_iff.2 ?_
  rw [violations, List.head?_append, hp, Option.some_or]

theorem compile_of_plan_ok (d : Dialect) {p : Plan} (h : r.plan = .ok p) (hr : r.rows = []) :
    d.compile r = .error .emptyBatch := by
  have hp : r.planViolations = [] := r.plan_reports.ok_iff.1 ⟨p, h⟩
  refine (d.compile_reports r).error_iff.2 ?_
  rw [violations, hp, found, if_pos hr]
  rfl

theorem rows_ne_nil_of_compile {d : Dialect} {c : Command} (h : d.compile r = .ok c) :
    r.rows ≠ [] :=
  (Dialect.exists_compile_eq_ok.1 ⟨c, h⟩).2

/-- Compiling does not reach the database. -/
theorem isCompileTime_of_compile {d : Dialect} (h : d.compile r = .error f) :
    f.isCompileTime = true := by
  have hf : f ∈ r.violations := List.mem_of_mem_head? ((d.compile_reports r).error_iff.1 h)
  rcases List.mem_append.1 hf with hp | hr
  · have hk := r.ofPlan_planViolations f hp
    cases f with
    | backend fault => cases hk
    | _ => rfl
  · by_cases he : r.rows = []
    · obtain rfl : f = .emptyBatch := by simpa [found, he] using hr
      rfl
    · simp [found, he] at hr

end Request

end UpsertSql
