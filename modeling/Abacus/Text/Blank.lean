-- Blanks, which separate numerals and tokens and count for nothing at the ends
-- of a text. They are a class of characters, given as closed ranges of code
-- points; the ranges ascend, so a search ends at the first one that starts too
-- high.

namespace Abacus.Text

/-! ## Classes of characters -/

/-- The code point stands in one of the ranges, as far as they ascend. -/
def inRanges : List (Nat × Nat) → Nat → Bool
  | [], _ => false
  | r :: ranges, n => r.1 ≤ n && (n ≤ r.2 || inRanges ranges n)

/-- The ranges ascend and leave gaps between them. -/
def apart : List (Nat × Nat) → Bool
  | r :: s :: ranges => r.1 ≤ r.2 && r.2 + 1 < s.1 && apart (s :: ranges)
  | [r] => r.1 ≤ r.2
  | [] => true

/-- How many code points the ranges hold. -/
def size : List (Nat × Nat) → Nat
  | [] => 0
  | r :: ranges => r.2 + 1 - r.1 + size ranges

/-! ## Blanks -/

/-- Every character with the Unicode property White_Space, and the four
information separators before the space. -/
def blankRanges : List (Nat × Nat) :=
  [(0x09, 0x0D), (0x1C, 0x20), (0x85, 0x85), (0xA0, 0xA0), (0x1680, 0x1680),
   (0x2000, 0x200A), (0x2028, 0x2029), (0x202F, 0x202F), (0x205F, 0x205F), (0x3000, 0x3000)]

example : apart blankRanges = true := by decide

def isBlank (c : Char) : Bool := inRanges blankRanges c.toNat

/-- The characters without the blanks at both ends. -/
def trimBlanks (cs : List Char) : List Char :=
  ((cs.dropWhile isBlank).reverse.dropWhile isBlank).reverse

theorem dropWhile_isBlank {cs : List Char} (h : ∀ c ∈ cs, isBlank c = false) :
    cs.dropWhile isBlank = cs := by
  cases cs with
  | nil => rfl
  | cons c cs => rw [List.dropWhile_cons, h c (List.mem_cons_self ..), if_neg (by decide)]

/-- Nothing goes where no blank stands. -/
theorem trimBlanks_eq_self {cs : List Char} (h : ∀ c ∈ cs, isBlank c = false) :
    trimBlanks cs = cs := by
  rw [trimBlanks, dropWhile_isBlank h,
    dropWhile_isBlank fun c hc => h c (List.mem_reverse.1 hc), List.reverse_reverse]

/-- What goes are the blanks at the two ends. -/
theorem exists_blanks_around (cs : List Char) :
    ∃ left right : List Char, (∀ c ∈ left, isBlank c = true) ∧
      (∀ c ∈ right, isBlank c = true) ∧ cs = left ++ trimBlanks cs ++ right := by
  refine ⟨cs.takeWhile isBlank, ((cs.dropWhile isBlank).reverse.takeWhile isBlank).reverse,
    List.all_eq_true.1 List.all_takeWhile, ?_, ?_⟩
  · intro c hc
    exact List.all_eq_true.1 List.all_takeWhile c (List.mem_reverse.1 hc)
  · unfold trimBlanks
    rw [List.append_assoc, ← List.reverse_append, List.takeWhile_append_dropWhile,
      List.reverse_reverse, List.takeWhile_append_dropWhile]

/-- Characters without a blank are all that is left between blanks. -/
theorem trimBlanks_between {left body right : List Char} (hl : ∀ c ∈ left, isBlank c = true)
    (hr : ∀ c ∈ right, isBlank c = true) (hb : ∀ c ∈ body, isBlank c = false) :
    trimBlanks (left ++ body ++ right) = body := by
  unfold trimBlanks
  rw [List.append_assoc, List.dropWhile_append_of_pos hl]
  cases body with
  | nil =>
    have hnone := @List.dropWhile_append_of_pos _ isBlank right [] hr
    rw [List.append_nil] at hnone
    rw [List.nil_append, hnone]
    rfl
  | cons c cs =>
    have hc : isBlank c = false := hb c (List.mem_cons_self ..)
    have hr' : ∀ d ∈ right.reverse, isBlank d = true := fun d hd => hr d (List.mem_reverse.1 hd)
    have hb' : ∀ d ∈ (c :: cs).reverse, isBlank d = false := fun d hd => hb d (List.mem_reverse.1 hd)
    rw [List.cons_append, List.dropWhile_cons, if_neg (by simp [hc]), ← List.cons_append,
      List.reverse_append, List.dropWhile_append_of_pos hr', dropWhile_isBlank hb',
      List.reverse_reverse]

end Abacus.Text
