-- Arithmetic on numerals of any bases: both sides are brought to base ten,
-- and so is every result.
import Abacus.Numeral.ToDecimal

namespace Abacus.Numeral

def zero : Numeral := Decimal.zero.toNumeral

def one : Numeral := Decimal.one.toNumeral

/-- The same number held in base ten. -/
def inDecimal (a : Numeral) : Numeral := a.toDecimal.toNumeral

def add (a b : Numeral) : Numeral := (a.toDecimal.add b.toDecimal).toNumeral

def sub (a b : Numeral) : Numeral := (a.toDecimal.sub b.toDecimal).toNumeral

def mul (a b : Numeral) : Numeral := (a.toDecimal.mul b.toDecimal).toNumeral

/-- Half of the number, toward zero. -/
def half (a : Numeral) : Numeral := a.toDecimal.half.toNumeral

/-- Compares the numbers without their signs. -/
def cmpMagnitude (a b : Numeral) : Ordering := a.toDecimal.cmpMagnitude b.toDecimal

/-- Compares the numbers; signs that differ decide alone. -/
def cmp (a b : Numeral) : Ordering := a.toDecimal.cmp b.toDecimal

@[simp] theorem toInt_inDecimal (a : Numeral) : a.inDecimal.toInt = a.toInt :=
  a.toInt_toDecimal

@[simp] theorem toInt_add (a b : Numeral) : (a.add b).toInt = a.toInt + b.toInt := by
  simp [add]

@[simp] theorem toInt_sub (a b : Numeral) : (a.sub b).toInt = a.toInt - b.toInt := by
  simp [sub]

@[simp] theorem toInt_mul (a b : Numeral) : (a.mul b).toInt = a.toInt * b.toInt := by
  simp [mul]

theorem cmp_eq (a b : Numeral) : cmp a b = compare a.toInt b.toInt := by
  rw [cmp, Decimal.cmp_eq, toInt_toDecimal, toInt_toDecimal]

end Abacus.Numeral
