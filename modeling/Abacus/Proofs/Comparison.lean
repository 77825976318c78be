-- The laws of comparison. Numerals of any bases compare as the integers they stand
-- for, and an integer may take either side. Every question is answered as the
-- integers answer it, and numbers that are equal are hashed by one integer.
import Abacus.Datum.Order

namespace Abacus

/-! ## Integers -/

theorem signOf_compare (m n : Int) : signOf (compare m n) = (m - n).sign := by
  rcases Int.lt_trichotomy m n with hlt | heq | hgt
  · rw [Int.compare_eq_lt.2 hlt, Int.sign_eq_neg_one_of_neg (by omega)]
    rfl
  · rw [Int.compare_eq_eq.2 heq, heq, Int.sub_self]
    rfl
  · rw [Int.compare_eq_gt.2 hgt, Int.sign_eq_one_of_pos (by omega)]
    rfl

namespace Relation

/-- The question, asked about integers. -/
def Holds (m n : Int) : Relation → Prop
  | equal => m = n
  | different => m ≠ n
  | below => m < n
  | atMost => m ≤ n
  | above => m > n
  | atLeast => m ≥ n

theorem holds_reversed {relation : Relation} {m n : Int} :
    relation.reversed.Holds n m ↔ relation.Holds m n := by
  cases relation with
  | equal | different => simp only [reversed, Holds, eq_comm, ne_eq]
  | below | atMost | above | atLeast => exact Iff.rfl

/-- Two answers are enough for all six. -/
theorem answer_compare {relation : Relation} {m n : Int} :
    relation.answer (compare m n) = true ↔ relation.Holds m n := by
  rcases Int.lt_trichotomy m n with hlt | heq | hgt
  · rw [Int.compare_eq_lt.2 hlt]
    cases relation <;> simp [answer, Holds] <;> omega
  · rw [Int.compare_eq_eq.2 heq]
    cases relation <;> simp [answer, Holds] <;> omega
  · rw [Int.compare_eq_gt.2 hgt]
    cases relation <;> simp [answer, Holds] <;> omega

end Relation

/-! ## Numerals -/

namespace Numeral

variable (a b : Numeral)

theorem cmpMagnitude_eq : a.cmpMagnitude b = compare a.toInt.natAbs b.toInt.natAbs := by
  unfold cmpMagnitude
  rw [Decimal.cmpMagnitude_eq, ← natAbs_toInt, ← natAbs_toInt, toInt_toDecimal, toInt_toDecimal]

theorem signOf_cmp : signOf (a.cmp b) = (a.toInt - b.toInt).sign := by
  rw [cmp_eq, signOf_compare]

theorem signOf_cmpMagnitude :
    signOf (a.cmpMagnitude b) = ((a.toInt.natAbs : Int) - b.toInt.natAbs).sign := by
  rw [cmpMagnitude_eq, ← Decimal.compare_natCast, signOf_compare]

end Numeral

/-! ## Numerals and integers -/

namespace Datum

/-- The datum is a number: a numeral in any base, or an integer as it is. -/
inductive Stands : Datum → Int → Prop
  | numeral (a : Numeral) : Stands (.numeral a) a.toInt
  | integer (n : Int) : Stands (.integer n) n

variable {x y : Datum} {m n : Int}

theorem Stands.key?_eq (h : x.Stands m) : x.key? = some m := by
  cases h with
  | numeral a => rfl
  | integer => exact congrArg some (Numeral.toInt_ofInt m)

theorem Stands.answer_eq (hx : x.Stands m) (hy : y.Stands n) (relation : Relation) :
    x.answer relation y = .ok (relation.answer (compare m n)) := by
  unfold answer
  rw [order?_eq hx.key?_eq hy.key?_eq]

/-- Whichever of the two answers, it answers as the integers do. -/
theorem Stands.relates (hx : x.Stands m) (hy : y.Stands n) (relation : Relation) :
    ∃ told, x.relates relation y = .ok told ∧ (told = true ↔ relation.Holds m n) := by
  cases hx with
  | numeral a => exact ⟨_, (Stands.numeral a).answer_eq hy relation, Relation.answer_compare⟩
  | integer =>
    exact ⟨_, hy.answer_eq (.integer m) relation.reversed,
      Relation.answer_compare.trans Relation.holds_reversed⟩

theorem Stands.eq_of_relates (hx : x.Stands m) (hy : y.Stands n)
    (h : x.relates .equal y = .ok true) : m = n := by
  obtain ⟨told, htold, hholds⟩ := hx.relates hy .equal
  cases htold.symm.trans h
  exact hholds.1 rfl

end Datum

/-! ## The laws -/

/-- The order of two numerals is the sign of their difference, and the order of their
magnitudes the sign of the difference of those. Between two numbers, each of them a
numeral in any base or an integer, every question has an answer, and it is the one
that the integers give. A number is hashed by its integer, so two that are equal are
hashed alike. -/
theorem numbers_compare_as_integers :
    (∀ a b : Numeral, signOf (a.cmp b) = (a.toInt - b.toInt).sign ∧
        signOf (a.cmpMagnitude b) = ((a.toInt.natAbs : Int) - b.toInt.natAbs).sign) ∧
      ∀ (x y : Datum) (m n : Int), x.Stands m → y.Stands n →
        (∀ relation : Relation, ∃ told, x.relates relation y = .ok told ∧
            (told = true ↔ relation.Holds m n)) ∧
          x.key? = some m ∧ (x.relates .equal y = .ok true → x.key? = y.key?) := by
  refine ⟨fun a b => ⟨a.signOf_cmp b, a.signOf_cmpMagnitude b⟩, ?_⟩
  intro x y m n hx hy
  refine ⟨hx.relates hy, hx.key?_eq, ?_⟩
  intro hequal
  rw [hx.key?_eq, hy.key?_eq, hx.eq_of_relates hy hequal]

/-- Seven in bits against minus seven, against nine on its left, and against the
integer seven. -/
theorem seven_in_bits_compares :
    let a : Numeral := .ofDigits 2 [1, 1, 1] false (by decide) (by decide)
    signOf (a.cmp a.neg) = 1 ∧ signOf (a.cmpMagnitude a.neg) = 0 ∧
      (Datum.integer 9).relates .above (.numeral a) = .ok true ∧
      (Datum.numeral a).relates .equal (.integer 7) = .ok true ∧
      (Datum.numeral a).key? = (Datum.integer 7).key? := by
  intro a
  have ha : a.toInt = 7 := by decide
  have hstands : (Datum.numeral a).Stands 7 := ha ▸ .numeral a
  obtain ⟨hsigns, hdata⟩ := numbers_compare_as_integers
  obtain ⟨hsign, hmagnitude⟩ := hsigns a a.neg
  rw [Numeral.toInt_neg, ha] at hsign hmagnitude
  obtain ⟨above, habove, hnine⟩ := (hdata _ _ 9 7 (.integer 9) hstands).1 .above
  obtain ⟨hseven, _, hkeys⟩ := hdata _ _ 7 7 hstands (.integer 7)
  obtain ⟨equal, hequal, hsame⟩ := hseven .equal
  obtain rfl : above = true := hnine.2 (show (9 : Int) > 7 by decide)
  obtain rfl : equal = true := hsame.2 rfl
  exact ⟨hsign, hmagnitude, habove, hequal, hkeys hequal⟩

end Abacus
