import Mathlib.Data.List.Infix

/-! Ways of writing things down that can be undone in front of a text: what was written and the
text that follows it are both determined. Where one thing could be the start of another, this asks
something of what follows. -/
namespace UpsertSql
variable {α τ : Type}

/-- For texts in `after`, what is written and the text after it can be told from the two
together. -/
def Decodes (f : α → List τ) (after : List τ → Prop) : Prop :=
  ∀ ⦃a b : α⦄ ⦃r s : List τ⦄, after r → after s → f a ++ r = f b ++ s → a = b ∧ r = s

/-- The items one after the other, each with the separator before it. -/
def preceded (sep : List τ) (f : α → List τ) : List α → List τ
  | [] => []
  | a :: l => sep ++ (f a ++ preceded sep f l)

/-- The items one after the other with the separator between any two. -/
def joined (sep : List τ) (f : α → List τ) : List α → List τ
  | [] => []
  | a :: l => f a ++ preceded sep f l

namespace Decodes
variable {f : α → List τ} {p q : List τ → Prop} {sep : List τ}

theorem injective (h : Decodes f p) (hp : p []) : Function.Injective f := by
  intro a b hab
  have he : f a ++ [] = f b ++ [] := by rw [hab]
  exact (h hp hp he).1

theorem after_preceded (hsep : ∀ t, p (sep ++ t)) {r : List τ} (hr : p r) (l : List α) :
    p (preceded sep f l ++ r) := by
  cases l with
  | nil => exact hr
  | cons a l =>
    rw [preceded, List.append_assoc]
    exact hsep _

/-- Where each item comes after a separator, the list goes on as long as separators do. -/
theorem many (h : Decodes f p) (hsep : ∀ t, p (sep ++ t))
    (hq : ∀ r, q r → p r ∧ ¬ sep <+: r) : Decodes (preceded sep f) q := by
  intro k l r s hr hs he
  induction k generalizing l with
  | nil =>
    cases l with
    | nil => exact ⟨rfl, he⟩
    | cons b l =>
      refine absurd ⟨f b ++ preceded sep f l ++ s, ?_⟩ (hq r hr).2
      simpa [preceded] using he.symm
  | cons a k ih =>
    cases l with
    | nil =>
      refine absurd ⟨f a ++ preceded sep f k ++ r, ?_⟩ (hq s hs).2
      simpa [preceded] using he
    | cons b l =>
      simp only [preceded, List.append_assoc, List.append_cancel_left_eq] at he
      obtain ⟨rfl, ht⟩ := h (after_preceded hsep (hq r hr).1 k)
        (after_preceded hsep (hq s hs).1 l) he
      obtain ⟨rfl, hrs⟩ := ih ht
      exact ⟨rfl, hrs⟩

/-- A list is decoded where the text after it begins neither like the separator nor like an
item. -/
theorem list (h : Decodes f p) (hsep : ∀ t, p (sep ++ t)) (hq : ∀ r, q r → p r ∧ ¬ sep <+: r)
    (hne : ∀ a r s, q s → f a ++ r ≠ s) : Decodes (joined sep f) q := by
  intro k l r s hr hs he
  cases k with
  | nil =>
    cases l with
    | nil => exact ⟨rfl, he⟩
    | cons b l =>
      refine absurd ?_ (hne b (preceded sep f l ++ s) r hr)
      simpa [joined] using he.symm
  | cons a k =>
    cases l with
    | nil =>
      refine absurd ?_ (hne a (preceded sep f k ++ r) s hs)
      simpa [joined] using he
    | cons b l =>
      simp only [joined, List.append_assoc] at he
      obtain ⟨rfl, ht⟩ := h (after_preceded hsep (hq r hr).1 k)
        (after_preceded hsep (hq s hs).1 l) he
      obtain ⟨rfl, hrs⟩ := h.many hsep hq hr hs ht
      exact ⟨rfl, hrs⟩

end Decodes
end UpsertSql
