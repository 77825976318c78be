-- Numerals: whole numbers of any size, held as digits in a base together with
-- a sign. A numeral is always in its one canonical form, so two numerals of
-- one base are the same exactly when they stand for the same integer.
import Abacus.Digits.Basic

namespace Abacus

/-- The smallest base that digits can be held in. -/
abbrev leastBase : Nat := 2

theorem two_le_toNat {n : Int} (h : leastBase ≤ n) : 2 ≤ n.toNat := by
  unfold leastBase at h
  omega

/-- A whole number held as digits in a base, the lowest digit first. The top
digit is zero only in zero itself, and zero is never negative. -/
structure Numeral where
  base : Nat
  digits : List Nat
  negative : Bool
  two_le_base : 2 ≤ base
  fits : Digits.Fits base digits
  trimmed : Digits.Trimmed digits
  zero_nonnegative : digits = [0] → negative = false
deriving DecidableEq

namespace Numeral

/-- The numeral with these digits: zeros at the top go, and zero loses its
sign. -/
def ofDigits (base : Nat) (digits : List Nat) (negative : Bool) (hb : 2 ≤ base)
    (hf : Digits.Fits base digits) : Numeral where
  base
  digits := Digits.trim digits
  negative := negative && Digits.trim digits != [0]
  two_le_base := hb
  fits := hf.trim (by omega)
  trimmed := Digits.trimmed_trim digits
  zero_nonnegative h := by simp [h]

/-- The number without its sign. -/
def magnitude (a : Numeral) : Nat := Digits.value a.base a.digits

/-- The integer that the numeral stands for. -/
def toInt (a : Numeral) : Int := if a.negative then -(a.magnitude : Int) else a.magnitude

/-- How many digits are held. -/
def length (a : Numeral) : Nat := a.digits.length

def isZero (a : Numeral) : Bool := a.digits == [0]

/-- The number with the other sign, in the same base. -/
def neg (a : Numeral) : Numeral := ofDigits a.base a.digits (!a.negative) a.two_le_base a.fits

/-- The number without its sign, in the same base. -/
def abs (a : Numeral) : Numeral := ofDigits a.base a.digits false a.two_le_base a.fits

/-! ## The integer of a numeral -/

theorem isZero_iff {a : Numeral} : a.isZero = true ↔ a.magnitude = 0 := by
  rw [isZero, beq_iff_eq, magnitude, a.trimmed.value_eq_zero a.fits]

theorem toInt_eq_zero {a : Numeral} : a.toInt = 0 ↔ a.magnitude = 0 := by
  rw [toInt]
  split <;> omega

theorem isZero_iff_toInt {a : Numeral} : a.isZero = true ↔ a.toInt = 0 := by
  rw [isZero_iff, toInt_eq_zero]

theorem not_negative_of_magnitude {a : Numeral} (h : a.magnitude = 0) : a.negative = false :=
  a.zero_nonnegative ((a.trimmed.value_eq_zero a.fits).1 h)

theorem negative_iff {a : Numeral} : a.negative = true ↔ a.toInt < 0 := by
  rw [toInt]
  split
  · rename_i h
    have hm : a.magnitude ≠ 0 := fun h0 => by simp [not_negative_of_magnitude h0] at h
    simp only [h, true_iff]
    omega
  · rename_i h
    simp only [h, Bool.false_eq_true, false_iff]
    omega

theorem natAbs_toInt (a : Numeral) : a.toInt.natAbs = a.magnitude := by
  rw [toInt]
  split <;> omega

/-- A product is negative when the signs differ. -/
theorem toInt_mul_toInt (a b : Numeral) :
    a.toInt * b.toInt =
      if a.negative != b.negative then -((a.magnitude * b.magnitude : Nat) : Int)
      else (a.magnitude * b.magnitude : Nat) := by
  rw [toInt, toInt]
  cases a.negative <;> cases b.negative <;> grind

@[simp] theorem magnitude_ofDigits {base : Nat} {ds : List Nat} {negative : Bool}
    (hb : 2 ≤ base) (hf : Digits.Fits base ds) :
    (ofDigits base ds negative hb hf).magnitude = Digits.value base ds :=
  Digits.value_trim base ds

theorem toInt_ofDigits {base : Nat} {ds : List Nat} {negative : Bool} (hb : 2 ≤ base)
    (hf : Digits.Fits base ds) :
    (ofDigits base ds negative hb hf).toInt =
      if negative then -(Digits.value base ds : Int) else Digits.value base ds := by
  rw [toInt, magnitude_ofDigits]
  by_cases h : Digits.trim ds = [0]
  · have : Digits.value base ds = 0 := by rw [← Digits.value_trim, h]; simp
    simp [this]
  · simp [ofDigits, h]

/-- In one base an integer has one numeral. -/
theorem eq_of_toInt {a b : Numeral} (hb : a.base = b.base) (h : a.toInt = b.toInt) : a = b := by
  have hm : a.magnitude = b.magnitude := by rw [← natAbs_toInt, ← natAbs_toInt, h]
  have hn : a.negative = b.negative := by
    rw [Bool.eq_iff_iff, negative_iff, negative_iff, h]
  obtain ⟨base, as, an, h1, h2, h3, h4⟩ := a
  obtain ⟨base', bs, bn, g1, g2, g3, g4⟩ := b
  cases hb
  cases hn
  have : as = bs := h3.eq_of_value g3 h2 g2 hm
  cases this
  rfl

@[simp] theorem toInt_neg (a : Numeral) : a.neg.toInt = -a.toInt := by
  rw [neg, toInt_ofDigits, toInt, magnitude]
  cases a.negative <;> simp

@[simp] theorem toInt_abs (a : Numeral) : a.abs.toInt = a.toInt.natAbs := by
  rw [abs, toInt_ofDigits, natAbs_toInt]
  rfl

end Numeral

end Abacus
