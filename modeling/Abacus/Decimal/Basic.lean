-- Decimals: the numerals of base ten, which all arithmetic works in. Each
-- integer has exactly one decimal, so two decimals are the same as soon as
-- their integers are.
import Abacus.Numeral.Basic
import Abacus.Digits.Order

namespace Abacus

/-- A numeral held in base ten. -/
structure Decimal extends Numeral where
  base_eq : base = 10
deriving DecidableEq

namespace Decimal

open Digits (Fits)

/-- The decimal with these digits. -/
def ofDigits (digits : List Nat) (negative : Bool) (h : Fits 10 digits) : Decimal :=
  ⟨Numeral.ofDigits 10 digits negative (by decide) h, rfl⟩

/-- The decimal of an integer. -/
def ofInt (n : Int) : Decimal :=
  ofDigits (Digits.ofNat 10 n.natAbs) (n < 0) (Digits.fits_ofNat (by decide) _)

def zero : Decimal := ofDigits [0] false (by decide)

def one : Decimal := ofDigits [1] false (by decide)

/-- The number with the other sign. -/
def neg (a : Decimal) : Decimal := ⟨a.toNumeral.neg, a.base_eq⟩

/-- The number without its sign. -/
def abs (a : Decimal) : Decimal := ⟨a.toNumeral.abs, a.base_eq⟩

/-- Compares the numbers without their signs. -/
def cmpMagnitude (a b : Decimal) : Ordering := Digits.cmp a.digits b.digits

/-- Compares two numbers: the signs first, then the magnitudes. -/
def cmp (a b : Decimal) : Ordering :=
  if a.negative = b.negative then
    if a.negative then (cmpMagnitude a b).swap else cmpMagnitude a b
  else if a.negative then .lt else .gt

/-! ## One decimal for each integer -/

theorem fits_ten (a : Decimal) : Fits 10 a.digits := by
  have := a.fits
  rwa [a.base_eq] at this

theorem magnitude_eq (a : Decimal) : a.magnitude = Digits.value 10 a.digits := by
  rw [Numeral.magnitude, a.base_eq]

theorem eq_of_toInt {a b : Decimal} (h : a.toInt = b.toInt) : a = b := by
  have := Numeral.eq_of_toInt (a.base_eq.trans b.base_eq.symm) h
  cases a
  cases b
  cases this
  rfl

theorem toInt_ofDigits {ds : List Nat} {negative : Bool} (h : Fits 10 ds) :
    (ofDigits ds negative h).toInt =
      if negative then -(Digits.value 10 ds : Int) else Digits.value 10 ds :=
  Numeral.toInt_ofDigits (by decide) h

@[simp] theorem toInt_ofInt (n : Int) : (ofInt n).toInt = n := by
  rw [ofInt, toInt_ofDigits, Digits.value_ofNat (by decide)]
  simp only [decide_eq_true_eq]
  split <;> omega

@[simp] theorem toInt_zero : zero.toInt = 0 := by decide

@[simp] theorem toInt_one : one.toInt = 1 := by decide

@[simp] theorem toInt_neg (a : Decimal) : a.neg.toInt = -a.toInt := a.toNumeral.toInt_neg

@[simp] theorem toInt_abs (a : Decimal) : a.abs.toInt = a.toInt.natAbs := a.toNumeral.toInt_abs

/-! ## Order -/

theorem cmpMagnitude_eq (a b : Decimal) : cmpMagnitude a b = compare a.magnitude b.magnitude := by
  rw [magnitude_eq, magnitude_eq]
  exact Digits.cmp_eq (by decide) a.fits_ten b.fits_ten a.trimmed b.trimmed

theorem compare_natCast (m n : Nat) : compare (m : Int) n = compare m n := by
  rw [Int.compare_eq_ite_lt, Nat.compare_eq_ite_lt]
  simp only [Int.ofNat_lt]

theorem compare_neg (m n : Int) : compare (-m) (-n) = (compare m n).swap := by
  rw [Int.compare_swap, Int.compare_eq_ite_lt, Int.compare_eq_ite_lt]
  simp only [Int.neg_lt_neg_iff]

theorem cmp_eq (a b : Decimal) : cmp a b = compare a.toInt b.toInt := by
  rw [cmp, cmpMagnitude_eq, ← compare_natCast]
  split
  · rename_i hsame
    rw [Numeral.toInt, Numeral.toInt, ← hsame]
    split
    · exact (compare_neg _ _).symm
    · rfl
  · rename_i hother
    have ha := @Numeral.negative_iff a.toNumeral
    have hb := @Numeral.negative_iff b.toNumeral
    rw [Bool.eq_not.2 (Ne.symm hother)] at hb
    -- The sign that differs is that of a number below zero.
    cases hsign : a.negative with
    | true =>
      rw [hsign] at ha hb
      rw [if_pos rfl, Int.compare_eq_lt.2]
      have hbelow := ha.1 rfl
      have habove : ¬ b.toInt < 0 := fun h => Bool.noConfusion (hb.2 h)
      omega
    | false =>
      rw [hsign] at ha hb
      rw [if_neg Bool.false_ne_true, Int.compare_eq_gt.2]
      have hbelow := hb.1 rfl
      have habove : ¬ a.toInt < 0 := fun h => Bool.noConfusion (ha.2 h)
      omega

end Decimal

end Abacus
