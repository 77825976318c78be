-- The forms in which numerals come and go: machine integers and text. A number
-- above one that comes as an integer is held in limbs of nine decimal digits,
-- every other one in base ten. As text the plain form is the decimal numeral,
-- whatever the base; the full form shows how the number is held as well.
import Abacus.Numeral.Ring
import Abacus.Decimal.Text
import Abacus.Text.Quoted

namespace Abacus

/-! ## Machine integers -/

/-- The decimal is negative, or one digit that is at most one. -/
def Decimal.isSmall (a : Decimal) : Bool :=
  a.negative || (a.length == 1 && a.digits.headD 0 ≤ 1)

theorem Decimal.isSmall_iff {a : Decimal} : a.isSmall = true ↔ a.toInt ≤ 1 := by
  unfold isSmall
  by_cases hneg : a.toInt < 0
  · have hle : a.toInt ≤ 1 := by omega
    simp [Numeral.negative_iff.2 hneg, hle]
  · have hsign : a.negative = false := by
      rw [← Bool.not_eq_true, Numeral.negative_iff]
      exact hneg
    constructor
    · intro h
      rw [hsign, Bool.false_or, Bool.and_eq_true, beq_iff_eq, decide_eq_true_eq] at h
      obtain ⟨hlength, hdigit⟩ := h
      obtain ⟨d, hd⟩ := List.length_eq_one_iff.1 hlength
      rw [hd, List.headD_cons] at hdigit
      rw [Numeral.toInt, hsign, magnitude_eq, hd]
      simp
      omega
    · intro h
      have hcases : a.toInt = zero.toInt ∨ a.toInt = one.toInt := by
        rw [toInt_zero, toInt_one]
        omega
      rcases hcases with h | h
      · rw [eq_of_toInt h]
        rfl
      · rw [eq_of_toInt h]
        rfl

namespace Numeral

/-- Decimal digits in one limb. -/
def limbDigits : Nat := 9

/-- The base that limbs are digits of. -/
abbrev limbBase : Nat := Digits.weight 10 limbDigits

/-- The digits of a decimal packed into limbs; the sign is not kept. -/
def packed (a : Decimal) : Numeral :=
  ofDigits limbBase (Digits.group 10 limbDigits a.digits) false (by decide)
    (Digits.fits_group (by decide) (by decide) a.fits_ten)

/-- The numeral of an integer: its decimal digits, packed unless it is small. -/
def ofInt (n : Int) : Numeral :=
  let a := Decimal.ofInt n
  if a.isSmall then a.toNumeral else packed a

theorem toInt_packed (a : Decimal) : (packed a).toInt = a.magnitude := by
  rw [packed, toInt_ofDigits, Decimal.magnitude_eq]
  exact congrArg Nat.cast (Digits.value_group (by decide) a.digits)

theorem ofInt_of_le_one {n : Int} (h : n ≤ 1) : ofInt n = (Decimal.ofInt n).toNumeral := by
  unfold ofInt
  rw [← Decimal.toInt_ofInt n] at h
  exact if_pos (Decimal.isSmall_iff.2 h)

theorem ofInt_of_one_lt {n : Int} (h : 1 < n) : ofInt n = packed (.ofInt n) := by
  unfold ofInt
  refine if_neg fun hsmall => ?_
  have hle := Decimal.isSmall_iff.1 hsmall
  rw [Decimal.toInt_ofInt] at hle
  omega

@[simp] theorem toInt_ofInt (n : Int) : (ofInt n).toInt = n := by
  by_cases h : n ≤ 1
  · rw [ofInt_of_le_one h]
    exact Decimal.toInt_ofInt n
  · rw [ofInt_of_one_lt (by omega), toInt_packed, ← natAbs_toInt, Decimal.toInt_ofInt]
    omega

/-! ## Text -/

/-- The decimal numeral of the number. -/
def text (a : Numeral) : String := a.toDecimal.text

/-- The numeral in quotes and, in a base other than ten, the base and the
digits from the top down. -/
def fullText (a : Numeral) : String :=
  let quoted := Text.quote a.text
  if a.base = 10 then s!"BigInt({quoted})"
  else
    let base := intText a.base
    let digits := ", ".intercalate (a.digits.reverse.map fun (d : Nat) => intText d)
    s!"BigInt({quoted}, base={base}, digits=[{digits}])"

end Numeral

end Abacus
