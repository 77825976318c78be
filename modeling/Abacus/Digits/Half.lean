-- Half of a digit list, from the top digit down. What is left over of one
-- digit goes on to the next lower one, and what is left at the end is the
-- parity of the number.
import Abacus.Digits.Basic

namespace Abacus.Digits

/-- The digits of the half, and the remainder: none or one. -/
def half (base : Nat) : List Nat → List Nat × Nat
  | [] => ([], 0)
  | d :: ds =>
    let (above, rest) := half base ds
    ((rest * base + d) / 2 :: above, (rest * base + d) % 2)

theorem half_snd_lt (base : Nat) (ds : List Nat) : (half base ds).2 < 2 := by
  cases ds with
  | nil => simp [half]
  | cons d ds => exact Nat.mod_lt _ (by omega)

theorem value_half (base : Nat) (ds : List Nat) :
    2 * value base (half base ds).1 + (half base ds).2 = value base ds := by
  induction ds with
  | nil => rfl
  | cons d ds ih =>
    simp only [half, value_cons, ← ih, Nat.mul_add]
    have h1 := Nat.div_add_mod ((half base ds).2 * base + d) 2
    have h2 : 2 * (base * value base (half base ds).1) =
        base * (2 * value base (half base ds).1) := by grind
    have h3 := Nat.mul_comm (half base ds).2 base
    omega

/-- The half of a number, without its remainder. -/
theorem value_half_fst (base : Nat) (ds : List Nat) :
    value base (half base ds).1 = value base ds / 2 := by
  have h1 := value_half base ds
  have h2 := half_snd_lt base ds
  omega

theorem Fits.half {base : Nat} {ds : List Nat} (h : Fits base ds) :
    Fits base (half base ds).1 := by
  induction ds with
  | nil => exact fits_nil base
  | cons d ds ih =>
    obtain ⟨hd, hds⟩ := fits_cons.1 h
    refine fits_cons.2 ⟨?_, ih hds⟩
    have h1 := half_snd_lt base ds
    have h2 : (Digits.half base ds).2 * base ≤ 1 * base := Nat.mul_le_mul_right base (by omega)
    exact (Nat.div_lt_iff_lt_mul (by omega)).2 (by omega)

end Abacus.Digits
