import Mathlib.Data.List.Forall2
import Mathlib.Data.List.TakeWhile
import UpsertSql.Text.Blank

/-! Keywords in texts of their own. Blanks on either side and the case of ASCII letters are put up
with; between the blanks every character has to be the keyword's. -/
namespace UpsertSql.Text
open List (Forall₂)

/-- The same character, or one of the letters A to Z in its two cases. -/
def SameLetter (c d : Char) : Prop :=
  c = d ∨ c.isUpper ∧ d.toNat = c.toNat + 32 ∨ d.isUpper ∧ c.toNat = d.toNat + 32

/-- The code points with the property White_Space, one by one. -/
def whiteSpace : List Nat :=
  [0x9, 0xa, 0xb, 0xc, 0xd, 0x20, 0x85, 0xa0, 0x1680, 0x2000, 0x2001, 0x2002, 0x2003, 0x2004,
    0x2005, 0x2006, 0x2007, 0x2008, 0x2009, 0x200a, 0x2028, 0x2029, 0x202f, 0x205f, 0x3000]

/-- The text is the keyword in whatever case, with white space before and after it. -/
def Spells (keyword s : String) : Prop :=
  ∃ w a w' : String, s = w ++ a ++ w' ∧ (∀ c ∈ w.toList, c.toNat ∈ whiteSpace) ∧
    (∀ c ∈ w'.toList, c.toNat ∈ whiteSpace) ∧ Forall₂ SameLetter a.toList keyword.toList

theorem isBlank_iff (c : Char) : isBlank c ↔ c.toNat ∈ whiteSpace := by
  simp only [isBlank, blankRanges, whiteSpace, List.any_cons, List.any_nil, Bool.or_eq_true,
    Bool.and_eq_true, decide_eq_true_eq, List.mem_cons, List.not_mem_nil, or_false, Bool.false_eq_true]
  omega

theorem isUpper_iff_val (c : Char) : c.isUpper ↔ c.val ≥ 'A'.val ∧ c.val ≤ 'Z'.val :=
  decide_eq_true_iff

theorem isUpper_iff (c : Char) : c.isUpper ↔ 65 ≤ c.toNat ∧ c.toNat ≤ 90 :=
  (isUpper_iff_val c).trans (and_congr UInt32.le_iff_toNat_le UInt32.le_iff_toNat_le)

theorem toNat_toLower (c : Char) :
    c.toLower.toNat = if c.isUpper then c.toNat + 32 else c.toNat := by
  by_cases h : c.isUpper
  · have hle := ((isUpper_iff c).1 h).2
    obtain ⟨hv, hl⟩ : ∃ hv, c.toLower = ⟨c.val + 32, hv⟩ := ⟨_, dif_pos ((isUpper_iff_val c).1 h)⟩
    -- the sum is far below the width of a character
    have hmod : (c.toNat + 32) % 2 ^ 32 = c.toNat + 32 := Nat.mod_eq_of_lt (by omega)
    rw [if_pos h, hl, ← hmod]
    exact UInt32.toNat_add c.val 32
  · have hl : c.toLower = c := dif_neg (mt (isUpper_iff_val c).2 h)
    rw [if_neg h, hl]

theorem toLower_eq_toLower_iff (c d : Char) : c.toLower = d.toLower ↔ SameLetter c d := by
  rw [SameLetter, isUpper_iff, isUpper_iff, ← Char.toNat_inj, ← Char.toNat_inj, toNat_toLower,
    toNat_toLower]
  simp only [isUpper_iff]
  split <;> split <;> omega

/-- There is no blank from A to z. -/
theorem isBlank_eq_false {c : Char} (h : 65 ≤ c.toNat ∧ c.toNat ≤ 122) : isBlank c = false := by
  rw [← Bool.not_eq_true, isBlank_iff, whiteSpace]
  simp only [List.mem_cons, List.not_mem_nil, or_false]
  omega

/-- A letter is no blank in either case. -/
theorem isBlank_toLower (c : Char) : isBlank c.toLower = isBlank c := by
  by_cases h : c.isUpper
  · have hc := (isUpper_iff c).1 h
    have hl : c.toLower.toNat = c.toNat + 32 := by rw [toNat_toLower, if_pos h]
    rw [isBlank_eq_false (by omega), isBlank_eq_false (by omega)]
  · have hl : c.toLower.toNat = c.toNat := by rw [toNat_toLower, if_neg h]
    rw [Char.toNat_inj.1 hl]

variable {w a w' s : List Char}

theorem dropWhile_isBlank_eq_self (h : ∀ c ∈ s, isBlank c = false) : s.dropWhile isBlank = s := by
  cases s with
  | nil => rfl
  | cons c s => exact List.dropWhile_cons_of_neg (by simp [h c])

/-- Blanks around a text without any are all that is trimmed. -/
theorem trim_append (hw : ∀ c ∈ w, isBlank c) (ha : ∀ c ∈ a, isBlank c = false)
    (hw' : ∀ c ∈ w', isBlank c) : trim (w ++ (a ++ w')) = a := by
  have hfront : (w ++ (a ++ w')).dropWhile isBlank = (a ++ w').dropWhile isBlank :=
    List.dropWhile_append_of_pos hw
  cases a with
  | nil =>
    have hnone : w'.dropWhile isBlank = [] := List.dropWhile_eq_nil_iff.2 hw'
    rw [trim, hfront, List.nil_append, hnone]
    rfl
  | cons c a =>
    have hc : isBlank c = false := ha c List.mem_cons_self
    have hstop : (c :: a ++ w').dropWhile isBlank = c :: a ++ w' :=
      List.dropWhile_cons_of_neg (by simp [hc])
    have hback : ∀ d ∈ w'.reverse, isBlank d := fun d hd => hw' d (List.mem_reverse.1 hd)
    have hrest : ∀ d ∈ (c :: a).reverse, isBlank d = false := fun d hd =>
      ha d (List.mem_reverse.1 hd)
    rw [trim, hfront, hstop, List.reverse_append, List.dropWhile_append_of_pos hback,
      dropWhile_isBlank_eq_self hrest, List.reverse_reverse]

/-- Only blanks are trimmed. -/
theorem exists_eq_append_trim (s : List Char) :
    ∃ w w', s = w ++ (trim s ++ w') ∧ (∀ c ∈ w, isBlank c) ∧ ∀ c ∈ w', isBlank c := by
  have hfront : s.takeWhile isBlank ++ s.dropWhile isBlank = s := List.takeWhile_append_dropWhile
  have hback : trim s ++ ((s.dropWhile isBlank).reverse.takeWhile isBlank).reverse =
      s.dropWhile isBlank := by
    rw [trim, ← List.reverse_append, List.takeWhile_append_dropWhile, List.reverse_reverse]
  refine ⟨s.takeWhile isBlank, _, by rw [hback, hfront], ?_, ?_⟩
  · intro c hc
    exact List.mem_takeWhile_imp hc
  · intro c hc
    exact List.mem_takeWhile_imp (List.mem_reverse.1 hc)

theorem map_toLower_eq_map_toLower_iff (a b : List Char) :
    a.map Char.toLower = b.map Char.toLower ↔ Forall₂ SameLetter a b := by
  rw [← List.forall₂_eq_eq_eq, List.forall₂_map_left_iff, List.forall₂_map_right_iff]
  simp only [toLower_eq_toLower_iff]

/-- Trimmed and put into lower case, a text is the keyword if it spells it. -/
theorem map_toLower_trim_eq_iff {keyword s : String}
    (hk : ∀ c ∈ keyword.toList, isBlank c = false ∧ c.toLower = c) :
    (trim s.toList).map Char.toLower = keyword.toList ↔ Spells keyword s := by
  have hself : keyword.toList.map Char.toLower = keyword.toList := by
    rw [List.map_congr_left fun c hc => (hk c hc).2, List.map_id']
  simp only [Spells, ← isBlank_iff]
  constructor
  · intro h
    obtain ⟨w, w', hs, hw, hw'⟩ := exists_eq_append_trim s.toList
    refine ⟨.ofList w, .ofList (trim s.toList), .ofList w', ?_, ?_, ?_, ?_⟩
    · refine String.toList_injective ?_
      simpa using hs
    · simpa using hw
    · simpa using hw'
    · rw [String.toList_ofList, ← map_toLower_eq_map_toLower_iff, h, hself]
  · rintro ⟨w, a, w', rfl, hw, hw', ha⟩
    have hm : a.toList.map Char.toLower = keyword.toList := by
      rw [(map_toLower_eq_map_toLower_iff _ _).2 ha, hself]
    have hb (c : Char) (hc : c ∈ a.toList) : isBlank c = false := by
      rw [← isBlank_toLower]
      exact (hk _ (hm ▸ List.mem_map_of_mem hc)).1
    rw [String.toList_append, String.toList_append, List.append_assoc, trim_append hw hb hw', hm]

end UpsertSql.Text
