-- Which numbers an operation takes: those of a machine word, those above zero,
-- those not below zero. A number outside is named in the refusal.
import Abacus.Error

namespace Abacus.Numeral

/-- The least signed 64-bit integer. -/
def wordMin : Int := -9223372036854775808

/-- The greatest signed 64-bit integer. -/
def wordMax : Int := 9223372036854775807

/-- The number as a machine word, if it fits one. -/
def toWord (a : Numeral) : Except Error Int :=
  if wordMin ≤ a.toInt ∧ a.toInt ≤ wordMax then .ok a.toInt else .error (.outsideWord a)

/-- The number, if it is above zero. -/
def requirePositive (a : Numeral) (reason : String := "Value must be positive") :
    Except Error Numeral :=
  if a.negative || a.isZero then .error (.outsideDomain reason a) else .ok a

/-- The number, if it is not below zero. -/
def requireNonnegative (a : Numeral) (reason : String := "Value must be non-negative") :
    Except Error Numeral :=
  if a.negative then .error (.outsideDomain reason a) else .ok a

/-! ## Who passes -/

section

variable {a : Numeral} (reason : String)

theorem requirePositive_of_nonpos (h : a.toInt ≤ 0) :
    a.requirePositive reason = .error (.outsideDomain reason a) := by
  have hrefused : (a.negative || a.isZero) = true := by
    rw [Bool.or_eq_true, negative_iff, isZero_iff_toInt]
    omega
  rw [requirePositive, if_pos hrefused]

theorem requirePositive_of_pos (h : 0 < a.toInt) : a.requirePositive reason = .ok a := by
  have hpasses : ¬ (a.negative || a.isZero) = true := by
    rw [Bool.or_eq_true, negative_iff, isZero_iff_toInt]
    omega
  rw [requirePositive, if_neg hpasses]

theorem requireNonnegative_of_neg (h : a.toInt < 0) :
    a.requireNonnegative reason = .error (.outsideDomain reason a) := by
  rw [requireNonnegative, if_pos (negative_iff.2 h)]

theorem requireNonnegative_of_nonneg (h : 0 ≤ a.toInt) : a.requireNonnegative reason = .ok a := by
  have hpasses : ¬ a.negative = true := by
    rw [negative_iff]
    omega
  rw [requireNonnegative, if_neg hpasses]

end

end Abacus.Numeral
