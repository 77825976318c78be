-- The decimal of a numeral in any base. A base that is a power of ten holds
-- limbs of decimal digits, which are taken apart; digits of any other base are
-- summed from the top by multiplying and adding. Either way the decimal
-- stands for the same integer.
import Abacus.Decimal.Ring
import Abacus.Digits.Limbs

namespace Abacus

namespace Decimal

/-- The number with these digits in a base, worked out from the top digit
down with decimal arithmetic. -/
def evaluate (base : Decimal) : List Nat → Decimal
  | [] => zero
  | d :: ds => ((evaluate base ds).mul base).add (ofInt d)

theorem toInt_evaluate (base : Nat) (ds : List Nat) :
    (evaluate (ofInt base) ds).toInt = Digits.value base ds := by
  induction ds with
  | nil => rfl
  | cons d ds ih =>
    simp only [evaluate, toInt_add, toInt_mul, ih, toInt_ofInt, Digits.value_cons]
    rw [Int.natCast_add, Int.natCast_mul, Int.mul_comm]
    omega

end Decimal

namespace Numeral

/-- The decimal of limbs, each of which holds `width` decimal digits. -/
def unpacked (a : Numeral) (width : Nat) : Decimal :=
  .ofDigits (Digits.split 10 width a.digits) a.negative
    (Digits.fits_split (show 0 < 10 by decide) width a.digits)

/-- The decimal that the digits are summed up to. -/
def summed (a : Numeral) : Decimal :=
  let magnitude := Decimal.evaluate (.ofInt a.base) a.digits
  if a.negative then magnitude.neg else magnitude

/-- The same number in base ten. -/
def toDecimal (a : Numeral) : Decimal :=
  if h : a.base = 10 then ⟨a, h⟩
  else
    match Digits.tenPower? a.base with
    | some width => a.unpacked width
    | none => a.summed

theorem toInt_unpacked {a : Numeral} {width : Nat} (h : a.base = Digits.weight 10 width) :
    (a.unpacked width).toInt = a.toInt := by
  have hf := a.fits
  rw [h] at hf
  rw [unpacked, Decimal.toInt_ofDigits, Digits.value_split hf, ← h]
  rfl

theorem toInt_summed (a : Numeral) : a.summed.toInt = a.toInt := by
  have hv := Decimal.toInt_evaluate a.base a.digits
  have ha : a.toInt = if a.negative then -(Digits.value a.base a.digits : Int)
      else Digits.value a.base a.digits := rfl
  rw [summed, ha]
  cases a.negative <;> simp [hv]

@[simp] theorem toInt_toDecimal (a : Numeral) : a.toDecimal.toInt = a.toInt := by
  rw [toDecimal]
  split
  · rfl
  · split
    · rename_i width h
      exact toInt_unpacked (Digits.tenPower?_eq_some h)
    · exact toInt_summed a

/-- Numerals of one integer have one decimal, whatever their bases. -/
theorem toDecimal_eq_iff {a b : Numeral} : a.toDecimal = b.toDecimal ↔ a.toInt = b.toInt := by
  constructor
  · intro h
    rw [← toInt_toDecimal a, ← toInt_toDecimal b, h]
  · intro h
    exact Decimal.eq_of_toInt (by simpa using h)

@[simp] theorem toDecimal_toNumeral (a : Decimal) : a.toNumeral.toDecimal = a := by
  rw [toDecimal, dif_pos a.base_eq]

end Numeral

end Abacus
