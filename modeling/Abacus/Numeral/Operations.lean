-- Inverting a function, dividing, taking roots and powers, on numerals of any
-- bases. Each one checks what it needs first and then works in base ten. An
-- exponent that is a numeral has to fit a machine word, and one that is an
-- integer may have any size.
import Abacus.Numeral.Read
import Abacus.Numeral.Domain
import Abacus.Decimal.Division

namespace Abacus.Numeral

/-- The largest number from one to the target whose image stays at or below
it, and zero when there is none. A function that never falls is inverted so. No
number above `high` is tried, if that is given. -/
def invert (f : Numeral → Except Error Numeral) (target : Numeral) (high : Option Numeral) :
    Except Error Numeral := do
  let target ← target.requireNonnegative "Search target must be non-negative"
  let image (x : Decimal) : Except Error Decimal := do
    let y ← f x.toNumeral
    return y.toDecimal
  let found ← Decimal.bisect image target.toDecimal (high.getD target).toDecimal
  return found.toNumeral

/-- The quotient toward zero. -/
def divide (a b : Numeral) : Except Error Numeral :=
  if b.isZero then .error (.divisionByZero a)
  else .ok (a.toDecimal.quotient b.toDecimal).toNumeral

/-- The quotient toward zero, and what it leaves of the dividend. -/
def divMod (a b : Numeral) : Except Error (Numeral × Numeral) :=
  if b.isZero then .error (.divisionByZero a)
  else
    let (quotient, rest) := a.toDecimal.divMod b.toDecimal
    .ok (quotient.toNumeral, rest.toNumeral)

/-- The remainder for a modulus above zero. -/
def mod (a b : Numeral) : Except Error Numeral := do
  let _ ← b.requirePositive "Modulus must be positive"
  let (_, remainder) ← a.divMod b
  return remainder

/-- The square root toward zero. -/
def root (a : Numeral) : Except Error Numeral := do
  let a ← a.requireNonnegative "Square root of a negative value"
  return a.toDecimal.root.toNumeral

/-- The power to an integer; zero for an exponent below zero. -/
def pow (a : Numeral) (n : Int) : Numeral :=
  if n < 0 then zero else (a.toDecimal.pow n.toNat).toNumeral

/-- The power to a numeral, which has to fit a machine word. -/
def powNumeral (a e : Numeral) : Except Error Numeral := do
  let n ← e.toWord
  return a.pow n

/-- The power to what a caller hands in as an exponent. -/
def powDatum (a : Numeral) : Datum → Except Error Numeral
  | .numeral e => a.powNumeral e
  | d => do
    let n ← d.toInt
    return a.pow n

/-! ## Who is refused -/

section

variable {a b : Numeral}

theorem divide_of_zero (h : b.toInt = 0) : a.divide b = .error (.divisionByZero a) := by
  rw [divide, if_pos (isZero_iff_toInt.2 h)]

theorem divMod_of_zero (h : b.toInt = 0) : a.divMod b = .error (.divisionByZero a) := by
  rw [divMod, if_pos (isZero_iff_toInt.2 h)]

theorem mod_of_nonpos (h : b.toInt ≤ 0) :
    a.mod b = .error (.outsideDomain "Modulus must be positive" b) := by
  rw [mod, requirePositive_of_nonpos _ h]
  rfl

/-- For a modulus above zero the remainder is that of the division. -/
theorem mod_eq_map (h : 0 < b.toInt) : a.mod b = (a.divMod b).map Prod.snd := by
  rw [mod, requirePositive_of_pos _ h]
  cases a.divMod b <;> rfl

theorem root_of_neg (h : a.toInt < 0) :
    a.root = .error (.outsideDomain "Square root of a negative value" a) := by
  rw [root, requireNonnegative_of_neg _ h]
  rfl

theorem root_of_nonneg (h : 0 ≤ a.toInt) : a.root = .ok a.toDecimal.root.toNumeral := by
  rw [root, requireNonnegative_of_nonneg _ h]
  rfl

theorem invert_of_neg (h : a.toInt < 0) (f : Numeral → Except Error Numeral)
    (high : Option Numeral) :
    invert f a high = .error (.outsideDomain "Search target must be non-negative" a) := by
  rw [invert, requireNonnegative_of_neg _ h]
  rfl

end

end Abacus.Numeral
