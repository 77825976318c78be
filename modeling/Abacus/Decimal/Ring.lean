-- Sum, difference, product, half and power of decimals, on their digits. The
-- laws below say which integer each result stands for; none of the steps can
-- run out of digits or of room. Powers come by repeated squaring, with a table
-- of those worked out on the way, so no exponent is worked out twice.
import Abacus.Decimal.Basic
import Abacus.Digits.Sum
import Abacus.Digits.Difference
import Abacus.Digits.Product
import Abacus.Digits.Half

namespace Abacus.Decimal

open Digits (Fits)

/-! ## Digits that are always there -/

theorem sub?_digits {a b : Decimal} (h : b.magnitude ≤ a.magnitude) :
    ∃ ds, Digits.sub? 10 a.digits b.digits = some ds ∧ Fits 10 ds ∧
      Digits.value 10 ds = a.magnitude - b.magnitude := by
  rw [magnitude_eq, magnitude_eq] at h
  obtain ⟨ds, h1, _, h3, h4⟩ := Digits.sub?_eq_some (by decide) a.fits_ten b.fits_ten h
  exact ⟨ds, h1, h3, by rw [magnitude_eq, magnitude_eq]; omega⟩

theorem mul?_digits (a b : Decimal) :
    ∃ ds, Digits.mul? 10 a.digits b.digits = some ds ∧ Fits 10 ds ∧
      Digits.value 10 ds = a.magnitude * b.magnitude := by
  obtain ⟨ds, h1, _, h3, h4⟩ := Digits.mul?_eq_some (by decide) a.fits_ten b.fits_ten
  exact ⟨ds, h1, h3, by rw [magnitude_eq, magnitude_eq, h4]⟩

theorem isSome_sub? {a b : Decimal} (h : b.magnitude ≤ a.magnitude) :
    (Digits.sub? 10 a.digits b.digits).isSome := by
  obtain ⟨ds, hd, _⟩ := sub?_digits h
  rw [hd]
  rfl

theorem isSome_mul? (a b : Decimal) : (Digits.mul? 10 a.digits b.digits).isSome := by
  obtain ⟨ds, hd, _⟩ := mul?_digits a b
  rw [hd]
  rfl

/-- The magnitude of `a` added to that of `b`, under a given sign. -/
def join (a b : Decimal) (negative : Bool) : Decimal :=
  ofDigits (Digits.add 10 a.digits b.digits) negative
    (Fits.add (by decide) a.fits_ten b.fits_ten)

/-- The magnitude of `a` less that of `b`, under a given sign. -/
def lessen (a b : Decimal) (negative : Bool) (h : b.magnitude ≤ a.magnitude) : Decimal :=
  ofDigits ((Digits.sub? 10 a.digits b.digits).get (isSome_sub? h)) negative (by
    obtain ⟨ds, hd, hf, _⟩ := sub?_digits h
    rwa [Option.get_of_eq_some _ hd])

theorem le_of_cmpMagnitude {a b : Decimal} (h : a.cmpMagnitude b = .lt) :
    a.magnitude ≤ b.magnitude := by
  rw [cmpMagnitude_eq, Nat.compare_eq_lt] at h
  omega

theorem ge_of_cmpMagnitude {a b : Decimal} (h : a.cmpMagnitude b ≠ .lt) :
    b.magnitude ≤ a.magnitude := by
  rw [cmpMagnitude_eq, ne_eq, Nat.compare_eq_lt] at h
  omega

/-! ## The operations -/

/-- The sum: numbers of one sign are added, of two signs the smaller magnitude
is taken from the larger, which keeps its sign. -/
def add (a b : Decimal) : Decimal :=
  if a.negative = b.negative then join a b a.negative
  else if h : a.cmpMagnitude b = .lt then lessen b a b.negative (le_of_cmpMagnitude h)
  else lessen a b a.negative (ge_of_cmpMagnitude h)

/-- The difference: numbers of two signs are added, of one sign the smaller
magnitude is taken from the larger. -/
def sub (a b : Decimal) : Decimal :=
  if a.negative ≠ b.negative then join a b a.negative
  else if h : a.cmpMagnitude b = .lt then lessen b a (!a.negative) (le_of_cmpMagnitude h)
  else lessen a b a.negative (ge_of_cmpMagnitude h)

/-- The product, negative when the signs differ. -/
def mul (a b : Decimal) : Decimal :=
  if a.isZero || b.isZero then zero
  else ofDigits ((Digits.mul? 10 a.digits b.digits).get (isSome_mul? a b))
    (a.negative != b.negative) (by
      obtain ⟨ds, hd, hf, _⟩ := mul?_digits a b
      rwa [Option.get_of_eq_some _ hd])

/-- Half of the number, toward zero. -/
def half (a : Decimal) : Decimal :=
  ofDigits (Digits.half 10 a.digits).1 a.negative (Fits.half a.fits_ten)

/-! ## The integers of the results -/

/-- The magnitude of `a` under a given sign. -/
def signed (a : Decimal) (negative : Bool) : Int :=
  if negative then -(a.magnitude : Int) else a.magnitude

theorem signed_self (a : Decimal) : a.signed a.negative = a.toInt := rfl

theorem signed_not (a : Decimal) (negative : Bool) : a.signed (!negative) = -a.signed negative := by
  cases negative <;> simp [signed]

theorem signed_of_ne {a : Decimal} {negative : Bool} (h : negative ≠ a.negative) :
    a.signed negative = -a.toInt := by
  rw [Bool.eq_not.2 h, signed_not, signed_self]

theorem toInt_join (a b : Decimal) (negative : Bool) :
    (join a b negative).toInt = a.signed negative + b.signed negative := by
  rw [join, toInt_ofDigits, Digits.value_add, ← magnitude_eq, ← magnitude_eq, signed, signed]
  split <;> omega

theorem toInt_lessen {a b : Decimal} {negative : Bool} (h : b.magnitude ≤ a.magnitude) :
    (lessen a b negative h).toInt = a.signed negative - b.signed negative := by
  obtain ⟨ds, hd, _, hv⟩ := sub?_digits h
  rw [lessen, toInt_ofDigits, Option.get_of_eq_some _ hd, hv, signed, signed]
  split <;> omega

@[simp] theorem toInt_add (a b : Decimal) : (a.add b).toInt = a.toInt + b.toInt := by
  rw [add]
  split
  · rename_i hsame
    rw [toInt_join, signed_self, hsame, signed_self]
  · rename_i hother
    split
    · rw [toInt_lessen, signed_self, signed_of_ne (Ne.symm hother)]
      omega
    · rw [toInt_lessen, signed_self, signed_of_ne hother]
      omega

@[simp] theorem toInt_sub (a b : Decimal) : (a.sub b).toInt = a.toInt - b.toInt := by
  rw [sub]
  split
  · rename_i hother
    rw [toInt_join, signed_self, signed_of_ne hother]
    omega
  · rename_i hsame
    have hsigns : a.negative = b.negative := Decidable.of_not_not hsame
    split
    · rw [toInt_lessen, signed_not, signed_not, signed_self, hsigns, signed_self]
      omega
    · rw [toInt_lessen, signed_self, hsigns, signed_self]

@[simp] theorem toInt_mul (a b : Decimal) : (a.mul b).toInt = a.toInt * b.toInt := by
  rw [mul]
  split
  · rename_i h
    rw [Bool.or_eq_true, Numeral.isZero_iff_toInt, Numeral.isZero_iff_toInt] at h
    rcases h with h | h <;> simp [h]
  · obtain ⟨ds, hd, _, hv⟩ := mul?_digits a b
    rw [toInt_ofDigits, Option.get_of_eq_some _ hd, hv, Numeral.toInt_mul_toInt]

@[simp] theorem toInt_half (a : Decimal) : a.half.toInt = a.toInt.tdiv 2 := by
  rw [half, toInt_ofDigits, Digits.value_half_fst, Numeral.toInt, magnitude_eq]
  cases a.negative
  · simp
  · simp [Int.neg_tdiv]

/-! ## Powers -/

/-- Powers of one number that are known already, newest first. -/
abbrev PowerTable := List (Nat × Decimal)

/-- The power to start from: to zero and to one. -/
def PowerTable.start (a : Decimal) : PowerTable := [(0, one), (1, a)]

/-- The power, and the table with the powers worked out for it. The power to
half the exponent is squared, and an odd exponent takes one factor more. -/
def powWith (a : Decimal) (n : Nat) (table : PowerTable) : Decimal × PowerTable :=
  match table.lookup n with
  | some known => (known, table)
  | none =>
    if _h : n = 0 then (one, table)
    else
      let (half, table) := powWith a (n / 2) table
      let square := half.mul half
      let result := if n % 2 = 1 then a.mul square else square
      (result, (n, result) :: table)
termination_by n
decreasing_by exact Nat.div_lt_self (Nat.pos_of_ne_zero _h) (by decide)

def pow (a : Decimal) (n : Nat) : Decimal := (powWith a n (.start a)).1

end Abacus.Decimal
