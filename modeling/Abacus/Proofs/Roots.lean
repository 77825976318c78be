-- The laws of square roots. A number below zero is refused and named. Every other
-- number has one root toward zero, and the search finds it in base ten, whatever
-- base the number is held in.
import Abacus.Proofs.Canonical
import Abacus.Proofs.Interchange

namespace Abacus.Numeral

/-- `r` is the square root of `a` toward zero, as arithmetic gives it back. -/
structure SquareRoot (a r : Numeral) : Prop where
  inTen : r.base = 10
  canonical : Canonical r.base r.digits r.negative
  nonnegative : 0 ≤ r.toInt
  square_le : r.toInt * r.toInt ≤ a.toInt
  lt_next_square : a.toInt < (r.toInt + 1) * (r.toInt + 1)

section

variable {a r s : Numeral}

/-! ## Refusals -/

theorem message_outsideDomain (reason : String) (a : Numeral) :
    (Error.outsideDomain reason a).message = reason ++ ": " ++ a.text := rfl

/-! ## Results -/

theorem squareRoot_of_nonneg (h : 0 ≤ a.toInt) : SquareRoot a a.toDecimal.root.toNumeral := by
  have hroot := @Decimal.toInt_root a.toDecimal
  rw [toInt_toDecimal] at hroot
  obtain ⟨hnonneg, hle, hlt⟩ := hroot h
  exact ⟨Decimal.base_eq _, canonical _, hnonneg, hle, hlt⟩

theorem squareRoot_ofInt {n : Int} (hn : 0 ≤ n) (hle : n * n ≤ a.toInt)
    (hlt : a.toInt < (n + 1) * (n + 1)) : SquareRoot a (Decimal.ofInt n).toNumeral := by
  refine ⟨rfl, canonical _, ?_, ?_, ?_⟩ <;> rwa [Decimal.toInt_ofInt]

/-- A number whose square is reached is no larger than one whose next square is not. -/
theorem SquareRoot.le (hr : SquareRoot a r) (hs : SquareRoot a s) : r.toInt ≤ s.toInt := by
  apply Int.le_of_not_gt
  intro hgt
  have hnonneg := hs.nonnegative
  have hsquares : (s.toInt + 1) * (s.toInt + 1) ≤ r.toInt * r.toInt :=
    Int.mul_le_mul hgt hgt (by omega) hr.nonnegative
  have hreached := hr.square_le
  have hpassed := hs.lt_next_square
  omega

theorem SquareRoot.eq (hr : SquareRoot a r) (hs : SquareRoot a s) : r = s :=
  eq_of_toInt (hr.inTen.trans hs.inTen.symm) (Int.le_antisymm (hr.le hs) (hs.le hr))

end

/-! ## The laws -/

/-- A root is refused exactly where the number is below zero, with the number in the
message. Every other number has exactly one root toward zero, and gets that. -/
theorem square_roots_go_toward_zero (a : Numeral) :
    ((∃ e, a.root = .error e ∧ e.kind = .operand ∧
        e.message = "Square root of a negative value: " ++ a.text) ↔ a.toInt < 0) ∧
      (0 ≤ a.toInt →
        ∃ r, a.root = .ok r ∧ SquareRoot a r ∧ ∀ s, SquareRoot a s → s = r) := by
  refine ⟨refused_iff ?_ ?_, ?_⟩
  · intro ha
    exact ⟨_, root_of_neg ha, rfl, message_outsideDomain _ a⟩
  · intro ha
    exact ⟨_, root_of_nonneg (by omega)⟩
  · intro ha
    have hroot := squareRoot_of_nonneg ha
    exact ⟨_, root_of_nonneg ha, hroot, fun s hs => hs.eq hroot⟩

/-- The numbers on both sides of the least five digits, held in base sixteen, and
the first of them below zero. -/
theorem roots_around_ten_thousand :
    let a : Numeral := .ofDigits 16 [15, 0, 7, 2] false (by decide) (by decide)
    let b : Numeral := .ofDigits 16 [0, 1, 7, 2] false (by decide) (by decide)
    a.root = .ok (Decimal.ofInt 99).toNumeral ∧ b.root = .ok (Decimal.ofInt 100).toNumeral ∧
      ∃ e, a.neg.root = .error e ∧ e.message = "Square root of a negative value: -9999" := by
  intro a b
  have ha : a.toInt = 9999 := by decide
  have hb : b.toInt = 10000 := by decide
  have htext : a.neg.text = (Decimal.ofTopDigits [9, 9, 9, 9] true).toNumeral.text :=
    text_eq (by rw [toInt_neg, ha]; decide)
  obtain ⟨r, hr, _, hronly⟩ := (square_roots_go_toward_zero a).2 (by rw [ha]; decide)
  obtain ⟨s, hs, _, hsonly⟩ := (square_roots_go_toward_zero b).2 (by rw [hb]; decide)
  obtain ⟨e, he, _, hmessage⟩ := (square_roots_go_toward_zero a.neg).1.2 (by
    rw [toInt_neg, ha]
    decide)
  rw [htext] at hmessage
  refine ⟨?_, ?_, e, he, hmessage⟩
  · rw [hr, hronly _ (squareRoot_ofInt (by decide) (by rw [ha]; decide) (by rw [ha]; decide))]
  · rw [hs, hsonly _ (squareRoot_ofInt (by decide) (by rw [hb]; decide) (by rw [hb]; decide))]

end Abacus.Numeral
