-- The digits of a number in another base, by dividing again and again: each
-- remainder is one digit, the lowest first. They are the digits that the
-- number has in that base, so nothing is lost on the way there and back.
import Abacus.Numeral.Operations

namespace Abacus

namespace Decimal

/-- The remainders of dividing again and again, until nothing is left. -/
def remainders (radix running : Decimal) : List Nat :=
  if _h : 2 ≤ radix.toInt ∧ 0 < running.toInt then
    let parts := running.divMod radix
    parts.2.magnitude :: remainders radix parts.1
  else []
termination_by running.toInt.toNat
decreasing_by
  rw [divMod_fst, toInt_quotient (by omega), Int.tdiv_eq_ediv_of_nonneg (by omega)]
  have := Int.ediv_lt_self_of_pos_of_ne_one _h.2 (show radix.toInt ≠ 1 by omega)
  omega

/-- Dividing again and again gives the digits of the number. -/
theorem remainders_eq (radix n : Nat) (h : 2 ≤ radix) :
    remainders (ofInt radix) (ofInt n) = Digits.ofNat radix n := by
  induction n using Nat.strongRecOn with
  | _ n ih =>
    have hr : (ofInt radix).toInt ≠ 0 := by
      rw [toInt_ofInt]
      omega
    rw [remainders]
    by_cases hn : n = 0
    · subst hn
      simp
    · rw [dif_pos (by rw [toInt_ofInt, toInt_ofInt]; omega), Digits.ofNat_of_pos h hn]
      have h1 : (divMod (ofInt n) (ofInt radix)).1 = ofInt (n / radix : Nat) := by
        apply eq_of_toInt
        rw [divMod_fst, toInt_quotient hr]
        simp [Int.tdiv_eq_ediv_of_nonneg]
      have h2 : (divMod (ofInt n) (ofInt radix)).2.magnitude = n % radix := by
        rw [← Numeral.natAbs_toInt, toInt_divMod_snd hr, toInt_ofInt, toInt_ofInt,
          Int.natAbs_tmod]
        rfl
      simp only [h1, h2]
      rw [ih _ (Nat.div_lt_self (Nat.pos_of_ne_zero hn) h)]

theorem remainders_eq_of_nonneg {radix : Nat} (h : 2 ≤ radix) {a : Decimal} (ha : 0 ≤ a.toInt) :
    remainders (ofInt radix) a = Digits.ofNat radix a.magnitude := by
  rw [← remainders_eq radix a.magnitude h, ← Numeral.natAbs_toInt]
  congr 1
  apply eq_of_toInt
  rw [toInt_ofInt]
  omega

theorem fits_remainders {radix : Nat} (h : 2 ≤ radix) (a : Decimal) :
    Digits.Fits radix (remainders (ofInt radix) a) := by
  by_cases ha : 0 ≤ a.toInt
  · rw [remainders_eq_of_nonneg h ha]
    exact Digits.fits_ofNat h _
  · rw [remainders, dif_neg (by omega)]
    exact Digits.fits_nil radix

end Decimal

namespace Numeral

/-- A base to convert to. -/
def requireBase (n : Int) : Except Error { radix : Nat // 2 ≤ radix } :=
  if h : leastBase ≤ n then .ok ⟨n.toNat, two_le_toNat h⟩
  else .error (.baseTooSmall n)

/-- The number held in another base. A number that is not above zero gives
zero in base ten. -/
def inBase (a : Numeral) (radix : Nat) (h : 2 ≤ radix) : Numeral :=
  if a.negative || a.isZero then zero
  else ofDigits radix (Decimal.remainders (.ofInt radix) a.toDecimal) false h
    (Decimal.fits_remainders h _)

/-- The number held in a base that a caller hands in. -/
def convert (a : Numeral) (base : Datum) : Except Error Numeral := do
  let base ← ofDatum base
  let ⟨radix, h⟩ ← requireBase base.toInt
  return a.inBase radix h

end Numeral

end Abacus
