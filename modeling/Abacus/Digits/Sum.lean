-- The sum of two digit lists, by carrying. It stands for the sum of the two
-- numbers, and each of its digits fits the base.
import Abacus.Digits.Basic

namespace Abacus.Digits

/-- Adds from the low end up; the shorter list goes on as zeros, and a last
carry becomes a digit of its own. -/
def addCarry (base : Nat) : List Nat → List Nat → Nat → List Nat
  | [], [], carry => if carry = 0 then [] else [carry]
  | a :: as, [], carry => (a + carry) % base :: addCarry base as [] ((a + carry) / base)
  | [], b :: bs, carry => (b + carry) % base :: addCarry base [] bs ((b + carry) / base)
  | a :: as, b :: bs, carry =>
    (a + b + carry) % base :: addCarry base as bs ((a + b + carry) / base)

def add (base : Nat) (as bs : List Nat) : List Nat := addCarry base as bs 0

theorem value_addCarry (base : Nat) (as bs : List Nat) (carry : Nat) :
    value base (addCarry base as bs carry) = value base as + value base bs + carry := by
  fun_induction addCarry base as bs carry with
  | case1 => simp
  | case2 carry h => simp
  | case3 a as carry ih =>
    simp only [value_cons, value_nil, ih, Nat.mul_add]
    have := Nat.mod_add_div (a + carry) base
    omega
  | case4 b bs carry ih =>
    simp only [value_cons, value_nil, ih, Nat.mul_add]
    have := Nat.mod_add_div (b + carry) base
    omega
  | case5 a as b bs carry ih =>
    simp only [value_cons, ih, Nat.mul_add]
    have := Nat.mod_add_div (a + b + carry) base
    omega

@[simp] theorem value_add (base : Nat) (as bs : List Nat) :
    value base (add base as bs) = value base as + value base bs := value_addCarry base as bs 0

theorem fits_addCarry {base : Nat} {as bs : List Nat} {carry : Nat} (hb : 2 ≤ base)
    (ha : Fits base as) (hbs : Fits base bs) (hc : carry ≤ 1) :
    Fits base (addCarry base as bs carry) := by
  have small {t : Nat} (h : t < 2 * base) : t / base ≤ 1 := by
    have := (Nat.div_lt_iff_lt_mul (show 0 < base by omega)).2 h
    omega
  fun_induction addCarry base as bs carry with
  | case1 => exact fits_nil base
  | case2 carry h => exact fits_cons.2 ⟨by omega, fits_nil base⟩
  | case3 a as carry ih =>
    obtain ⟨h1, h2⟩ := fits_cons.1 ha
    exact fits_cons.2 ⟨Nat.mod_lt _ (by omega), ih h2 hbs (small (by omega))⟩
  | case4 b bs carry ih =>
    obtain ⟨h1, h2⟩ := fits_cons.1 hbs
    exact fits_cons.2 ⟨Nat.mod_lt _ (by omega), ih ha h2 (small (by omega))⟩
  | case5 a as b bs carry ih =>
    obtain ⟨h1, h2⟩ := fits_cons.1 ha
    obtain ⟨h3, h4⟩ := fits_cons.1 hbs
    exact fits_cons.2 ⟨Nat.mod_lt _ (by omega), ih h2 h4 (small (by omega))⟩

theorem Fits.add {base : Nat} {as bs : List Nat} (hb : 2 ≤ base) (ha : Fits base as)
    (hbs : Fits base bs) : Fits base (add base as bs) :=
  fits_addCarry hb ha hbs (Nat.zero_le 1)

end Abacus.Digits
