import UpsertSql.Proofs.Text.Token

/-! The lists of a statement: what it writes between parentheses, item by item. A reader finds them
without knowing which statement it reads. -/
namespace UpsertSql.Token
variable {π : Type}

/-- What stands between two parentheses with no other in between, in the order of the text. The
state is what has been read since the last opening one, if it is not closed yet. -/
def groups : Option (List (Token π)) → List (Token π) → List (List (Token π))
  | _, [] => []
  | o, char c :: ts =>
    if c = '(' then groups (some []) ts
    else if c = ')' then o.toList ++ groups none ts
    else groups (o.map (· ++ [char c])) ts
  | o, t :: ts => groups (o.map (· ++ [t])) ts

/-- Items as they are listed. -/
def listed (items : List (List (Token π))) : List (Token π) := [char ',', char ' '].intercalate items

@[simp]
def isName : Token π → Bool
  | name _ => true
  | _ => false

@[simp]
def isPlaceholder : Token π → Bool
  | placeholder _ => true
  | _ => false

/-- The text begins with such a token. -/
def begins (p : Token π → Bool) : List (Token π) → Bool
  | [] => false
  | t :: _ => p t

@[simp]
theorem begins_nil (p : Token π → Bool) : begins p [] = false := rfl

@[simp]
theorem begins_cons (p : Token π → Bool) (t : Token π) (x : List (Token π)) :
    begins p (t :: x) = p t := rfl

/-- The lists that begin with a name. -/
def columnLists (ts : List (Token π)) : List (List (Token π)) :=
  (groups none ts).filter (begins isName)

/-- The lists that begin with a placeholder. -/
def rowLists (ts : List (Token π)) : List (List (Token π)) :=
  (groups none ts).filter (begins isPlaceholder)

/-- There is no parenthesis in the text. -/
def Flat (x : List (Token π)) : Prop := ∀ t ∈ x, t ≠ char '(' ∧ t ≠ char ')'

theorem flat_append {x y : List (Token π)} : Flat (x ++ y) ↔ Flat x ∧ Flat y :=
  List.forall_mem_append

theorem flat_chars {w : List Char} (h : ∀ c ∈ w, c ≠ '(' ∧ c ≠ ')') :
    Flat (w.map (char : Char → Token π)) := by
  intro t ht
  obtain ⟨c, hc, rfl⟩ := List.mem_map.1 ht
  simpa using h c hc

theorem listed_cons_cons (x y : List (Token π)) (items : List (List (Token π))) :
    listed (x :: y :: items) = x ++ char ',' :: char ' ' :: listed (y :: items) := by
  simp [listed, List.intercalate_cons_cons]

@[simp]
theorem listed_nil : listed ([] : List (List (Token π))) = [] := rfl

@[simp]
theorem begins_listed (p : Token π → Bool) (t : Token π) (x : List (Token π))
    (items : List (List (Token π))) : begins p (listed ((t :: x) :: items)) = p t := by
  cases items with
  | nil => simp [listed]
  | cons y items => simp [listed_cons_cons]

theorem flat_listed {items : List (List (Token π))} (h : ∀ x ∈ items, Flat x) :
    Flat (listed items) := by
  induction items with
  | nil => exact List.forall_mem_nil _
  | cons x items ih =>
    have hx := h x (by simp)
    cases items with
    | nil => simpa [listed] using hx
    | cons y items =>
      have hy := ih fun z hz => h z (List.mem_cons_of_mem x hz)
      have hsep : Flat ([',', ' '].map (char : Char → Token π)) := flat_chars (by simp)
      rw [listed_cons_cons]
      exact flat_append.2 ⟨hx, flat_append.2 ⟨hsep, hy⟩⟩

theorem groups_flat {x : List (Token π)} (h : Flat x) (o : Option (List (Token π)))
    (y : List (Token π)) : groups o (x ++ y) = groups (o.map (· ++ x)) y := by
  induction x generalizing o with
  | nil => simp
  | cons t x ih =>
    have hx : Flat x := fun u hu => h u (List.mem_cons_of_mem t hu)
    have ht := h t (by simp)
    have hstep : groups o (t :: (x ++ y)) = groups (o.map (· ++ [t])) (x ++ y) := by
      cases t with
      | char c =>
        have hc : c ≠ '(' ∧ c ≠ ')' := by simpa using ht
        rw [groups, if_neg hc.1, if_neg hc.2]
      | name s => rfl
      | placeholder p => rfl
    rw [List.cons_append, hstep, ih hx]
    simp [Option.map_map, Function.comp_def]

/-- Where nothing has been opened, text without parentheses is passed over. -/
theorem groups_none {x : List (Token π)} (h : Flat x) (y : List (Token π)) :
    groups none (x ++ y) = groups none y :=
  groups_flat h none y

/-- Where one has been opened, the text up to the next closing one is a group. -/
theorem groups_some {x : List (Token π)} (h : Flat x) (y : List (Token π)) :
    groups (some []) (x ++ char ')' :: y) = x :: groups none y := by
  rw [groups_flat h, groups, if_neg (by decide), if_pos rfl]
  rfl

/-- Lists that are listed themselves. -/
theorem groups_listed {gs : List (List (Token π))} (h : ∀ g ∈ gs, Flat g) (hne : gs ≠ [])
    (o : Option (List (Token π))) (y : List (Token π)) :
    groups o (listed (gs.map fun g => char '(' :: (g ++ [char ')'])) ++ y) =
      gs ++ groups none y := by
  induction gs generalizing o with
  | nil => exact absurd rfl hne
  | cons g gs ih =>
    have hg := groups_some (h g (by simp))
    cases gs with
    | nil => simp [listed, groups, hg]
    | cons k gs =>
      have hk := ih (fun l hl => h l (List.mem_cons_of_mem g hl)) (List.cons_ne_nil _ _) none
      have hsep : Flat ([',', ' '].map (char : Char → Token π)) := flat_chars (by simp)
      rw [List.map_cons, List.map_cons, listed_cons_cons]
      simp only [List.cons_append, List.append_assoc, List.nil_append] at hk ⊢
      rw [groups, if_pos rfl, hg, List.cons_inj_right, ← hk]
      exact groups_none hsep _

/-- Text that adds no rows to those of the text after it. -/
def Rowless (x : List (Token π)) : Prop := ∀ y, rowLists (x ++ y) = rowLists y

theorem Rowless.append {x y : List (Token π)} (hx : Rowless x) (hy : Rowless y) :
    Rowless (x ++ y) := by
  intro z
  rw [List.append_assoc, hx, hy]

theorem Rowless.rowLists_eq_nil {x : List (Token π)} (h : Rowless x) : rowLists x = [] := by
  have hx := h []
  rwa [List.append_nil] at hx

theorem Flat.rowless {x : List (Token π)} (h : Flat x) : Rowless x := by
  intro y
  rw [rowLists, groups_none h]
  rfl

end UpsertSql.Token
