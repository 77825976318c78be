-- Quotient and square root, each found by bisecting: the quotient inverts
-- multiplication by the divisor, the root inverts squaring. The number of
-- digits of the answer is known beforehand, and the bound drawn from it never
-- cuts the answer off.
import Abacus.Decimal.Bisection

namespace Abacus.Decimal

open Digits (weight)

/-- The largest number of so many digits. -/
def nines (digits : Nat) : Decimal :=
  (ofDigits (List.replicate digits 0 ++ [1]) false (by
    refine Digits.fits_append.2 ⟨Digits.Fits.replicate_zero (by decide) _, by decide⟩)).sub one

/-- The quotient of the magnitudes, for a divisor that is not zero. It has at
most one digit more than the dividend has over the divisor. -/
def quotientMagnitude (a b : Decimal) : Decimal :=
  Id.run (bisect (fun x => pure (x.mul b.abs)) a.abs (nines (a.length - b.length + 1)))

/-- The quotient toward zero, for a divisor that is not zero. -/
def quotient (a b : Decimal) : Decimal :=
  if a.negative != b.negative then (quotientMagnitude a b).neg else quotientMagnitude a b

/-- The quotient, and what it leaves of the dividend. -/
def divMod (a b : Decimal) : Decimal × Decimal :=
  let q := quotient a b
  (q, a.sub (b.mul q))

/-- The largest number whose square is not above the magnitude. It has half
as many digits, rounded up. -/
def root (a : Decimal) : Decimal :=
  if a.cmpMagnitude one = .gt then
    Id.run (bisect (fun x => pure (x.mul x)) a (nines ((a.length + 1) / 2)))
  else a

/-! ## The bounds -/

theorem toInt_nines (n : Nat) : (nines n).toInt = ((weight 10 n : Nat) : Int) - 1 := by
  rw [nines, toInt_sub, toInt_ofDigits, Digits.value_append, Digits.value_replicate_zero,
    List.length_replicate, toInt_one]
  simp

/-- A number stays below the weight of the next place. -/
theorem magnitude_lt (a : Decimal) : a.magnitude < weight 10 a.length := by
  rw [magnitude_eq]
  exact a.fits_ten.value_lt

/-- A number other than zero reaches the weight of its top digit. -/
theorem weight_le_magnitude {a : Decimal} (h : a.magnitude ≠ 0) :
    weight 10 (a.length - 1) ≤ a.magnitude := by
  rw [magnitude_eq] at *
  exact a.trimmed.weight_le_value fun h0 => h (by rw [h0]; rfl)

theorem length_pos (a : Decimal) : 0 < a.length :=
  List.length_pos_iff.2 a.trimmed.1

/-- The bound for the quotient is not below it. -/
theorem div_lt_weight {a b : Decimal} (h : b.magnitude ≠ 0) :
    a.magnitude / b.magnitude < weight 10 (a.length - b.length + 1) := by
  rw [Nat.div_lt_iff_lt_mul (by omega)]
  refine Nat.lt_of_lt_of_le (magnitude_lt a) ?_
  have hl := length_pos b
  have h1 : weight 10 a.length ≤ weight 10 (a.length - b.length + 1 + (b.length - 1)) :=
    Digits.weight_le (by decide) (by omega)
  rw [Digits.weight_add] at h1
  exact Nat.le_trans h1 (Nat.mul_le_mul_left _ (weight_le_magnitude h))

/-! ## The quotient -/

theorem toInt_quotientMagnitude {a b : Decimal} (hb : b.magnitude ≠ 0) :
    (quotientMagnitude a b).toInt = (a.magnitude / b.magnitude : Nat) := by
  have hpos : (0 : Int) < b.magnitude := by omega
  have hmod := Nat.div_add_mod a.magnitude b.magnitude
  have hlt := Nat.mod_lt a.magnitude (show b.magnitude > 0 by omega)
  have hbound := div_lt_weight (a := a) hb
  have hself := Nat.div_le_self a.magnitude b.magnitude
  rw [Nat.mul_comm] at hmod
  generalize a.magnitude / b.magnitude = q at *
  refine bisect_eq_of_rising (g := fun x => x * b.magnitude) ?_ ?_ (by omega) ?_ ?_ ?_ ?_
  · intro x
    rw [toInt_mul, toInt_abs, Numeral.natAbs_toInt]
  · intro x y _ hxy
    exact Int.mul_lt_mul_of_pos_right hxy hpos
  · intro _
    rw [toInt_abs, Numeral.natAbs_toInt, ← Int.natCast_mul]
    omega
  · rw [toInt_abs, Numeral.natAbs_toInt, Int.add_mul, ← Int.natCast_mul]
    omega
  · have h10 := toInt_nines (a.length - b.length + 1)
    omega
  · rw [toInt_abs, Numeral.natAbs_toInt]
    omega

theorem toInt_quotient {a b : Decimal} (h : b.toInt ≠ 0) :
    (quotient a b).toInt = a.toInt.tdiv b.toInt := by
  have hq := toInt_quotientMagnitude (a := a) fun h0 => h (Numeral.toInt_eq_zero.2 h0)
  have ha : a.toInt = if a.negative then -(a.magnitude : Int) else a.magnitude := rfl
  have hb : b.toInt = if b.negative then -(b.magnitude : Int) else b.magnitude := rfl
  rw [quotient, ha, hb]
  cases a.negative <;> cases b.negative <;> simp [hq, Int.neg_tdiv, Int.tdiv_neg]

theorem divMod_fst (a b : Decimal) : (divMod a b).1 = quotient a b := rfl

theorem toInt_divMod_snd {a b : Decimal} (h : b.toInt ≠ 0) :
    (divMod a b).2.toInt = a.toInt.tmod b.toInt := by
  rw [divMod, toInt_sub, toInt_mul, toInt_quotient h, Int.tmod_def]

/-! ## The root -/

/-- Every number has a root toward zero. -/
theorem exists_root (n : Nat) : ∃ r, r * r ≤ n ∧ n < (r + 1) * (r + 1) := by
  induction n with
  | zero => exact ⟨0, by decide, by decide⟩
  | succ n ih =>
    obtain ⟨r, h1, h2⟩ := ih
    by_cases h : n + 1 < (r + 1) * (r + 1)
    · exact ⟨r, by omega, h⟩
    · refine ⟨r + 1, by omega, ?_⟩
      have : (r + 1 + 1) * (r + 1 + 1) = (r + 1) * (r + 1) + (2 * r + 3) := by grind
      omega

/-- The bound for the root is not below it. -/
theorem root_lt_weight {a : Decimal} {r : Nat} (h : r * r ≤ a.magnitude) :
    r < weight 10 ((a.length + 1) / 2) := by
  have h1 := magnitude_lt a
  have h2 : weight 10 a.length ≤ weight 10 ((a.length + 1) / 2 + (a.length + 1) / 2) :=
    Digits.weight_le (by decide) (by omega)
  rw [Digits.weight_add] at h2
  apply Nat.lt_of_not_le
  intro h3
  have := Nat.mul_le_mul h3 h3
  omega

/-- The largest number whose square is not above the one given. -/
theorem toInt_root {a : Decimal} (h : 0 ≤ a.toInt) :
    0 ≤ (root a).toInt ∧ (root a).toInt * (root a).toInt ≤ a.toInt ∧
      a.toInt < ((root a).toInt + 1) * ((root a).toInt + 1) := by
  have ha := Numeral.natAbs_toInt a.toNumeral
  rw [root]
  split
  · obtain ⟨r, h1, h2⟩ := exists_root a.magnitude
    have hbound := root_lt_weight h1
    have h10 := toInt_nines ((a.length + 1) / 2)
    have hroot : (Id.run (bisect (fun x => pure (x.mul x)) a
        (nines ((a.length + 1) / 2)))).toInt = r := by
      refine bisect_eq_of_rising (g := fun x => x * x) (fun x => toInt_mul x x) ?_ (by omega)
        ?_ ?_ (by omega) ?_
      · intro x y hx hxy
        exact Int.mul_lt_mul hxy (Int.le_of_lt hxy) (by omega) (by omega)
      · intro _
        rw [← Int.natCast_mul]
        omega
      · have : ((r : Int) + 1) * (r + 1) = ((r + 1) * (r + 1) : Nat) := by simp
        rw [this]
        omega
      · have : r ≤ r * r := Nat.le_mul_self r
        omega
    rw [hroot, ← Int.natCast_mul]
    have : ((r : Int) + 1) * (r + 1) = ((r + 1) * (r + 1) : Nat) := by simp
    omega
  · rename_i h1
    rw [cmpMagnitude_eq, Nat.compare_eq_gt, ← Numeral.natAbs_toInt one.toNumeral, toInt_one] at h1
    have : a.toInt = 0 ∨ a.toInt = 1 := by omega
    rcases this with h | h <;> rw [h] <;> decide

end Abacus.Decimal
