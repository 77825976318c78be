-- The laws of division. The quotient goes toward zero and the remainder takes
-- the sign of the dividend, whatever bases the numbers are held in. A divisor
-- that is zero is refused with the dividend named, and a modulus that is not
-- above zero with the modulus named.
import Abacus.Proofs.Interchange

namespace Abacus.Numeral

variable {a b : Numeral}

/-! ## Refusals -/

theorem message_divisionByZero (a : Numeral) :
    (Error.divisionByZero a).message = "Division by zero: " ++ a.text := by
  have hreason : "Division by zero" ++ ": " = "Division by zero: " := by decide
  rw [← hreason]
  rfl

/-! ## Results -/

/-- The quotient toward zero, in base ten. -/
def quotient (a b : Numeral) : Numeral := (a.toDecimal.quotient b.toDecimal).toNumeral

/-- What the quotient leaves of the dividend, in base ten. -/
def rest (a b : Numeral) : Numeral := (a.toDecimal.divMod b.toDecimal).2.toNumeral

theorem divide_of_ne_zero (h : b.toInt ≠ 0) : a.divide b = .ok (a.quotient b) := by
  unfold divide
  rw [if_neg fun hz => h (isZero_iff_toInt.1 hz)]
  rfl

theorem divMod_of_ne_zero (h : b.toInt ≠ 0) : a.divMod b = .ok (a.quotient b, a.rest b) := by
  unfold divMod
  rw [if_neg fun hz => h (isZero_iff_toInt.1 hz)]
  rfl

theorem mod_of_pos (h : 0 < b.toInt) : a.mod b = .ok (a.rest b) := by
  rw [mod_eq_map h, divMod_of_ne_zero (by omega)]
  rfl

theorem toInt_quotient (h : b.toInt ≠ 0) : (a.quotient b).toInt = a.toInt.tdiv b.toInt := by
  rw [quotient, Decimal.toInt_quotient (by rwa [toInt_toDecimal]), toInt_toDecimal,
    toInt_toDecimal]

theorem toInt_rest (h : b.toInt ≠ 0) : (a.rest b).toInt = a.toInt.tmod b.toInt := by
  rw [rest, Decimal.toInt_divMod_snd (by rwa [toInt_toDecimal]), toInt_toDecimal,
    toInt_toDecimal]

/-- `q` is the quotient of `a` by `b` toward zero, and `r` is what it leaves. -/
structure Divides (a b q r : Numeral) : Prop where
  towardZero : q.toInt = a.toInt.tdiv b.toInt
  whole : a.toInt = q.toInt * b.toInt + r.toInt
  small : r.toInt.natAbs < b.toInt.natAbs
  sign : r.toInt = 0 ∨ r.toInt.sign = a.toInt.sign
  noNegativeZero : q.toInt = 0 → q.negative = false

theorem divides (h : b.toInt ≠ 0) : Divides a b (a.quotient b) (a.rest b) where
  towardZero := toInt_quotient h
  whole := by
    rw [toInt_quotient h, toInt_rest h]
    exact (Int.tdiv_mul_add_tmod a.toInt b.toInt).symm
  small := by
    rw [toInt_rest h, Int.natAbs_tmod]
    exact Nat.mod_lt _ (Int.natAbs_pos.2 h)
  sign := by
    rw [toInt_rest h, Int.sign_tmod]
    by_cases hd : b.toInt ∣ a.toInt
    · exact .inl (Int.tmod_eq_zero_of_dvd hd)
    · exact .inr (if_neg hd)
  noNegativeZero hq := not_negative_of_magnitude (toInt_eq_zero.1 hq)

/-! ## The laws -/

/-- Division is refused exactly where the divisor is zero, with the dividend in
the message. Else both divisions give the quotient toward zero, and the second
one gives the remainder too, which is smaller than the divisor and has the sign
of the dividend. The remainder alone is refused exactly where the modulus is not
above zero. -/
theorem quotients_go_toward_zero (a b : Numeral) :
    ((∃ e, a.divide b = .error e ∧ e.kind = .divisionByZero ∧
        e.message = "Division by zero: " ++ a.text) ↔ b.toInt = 0) ∧
      ((∃ e, a.divMod b = .error e ∧ e.kind = .divisionByZero ∧
        e.message = "Division by zero: " ++ a.text) ↔ b.toInt = 0) ∧
      (b.toInt ≠ 0 → ∃ q r, a.divide b = .ok q ∧ a.divMod b = .ok (q, r) ∧ Divides a b q r) ∧
      ((∃ e, a.mod b = .error e ∧ e.kind = .operand) ↔ b.toInt ≤ 0) ∧
      (0 < b.toInt → ∃ q r, a.divMod b = .ok (q, r) ∧ a.mod b = .ok r) := by
  refine ⟨refused_iff ?_ ?_, refused_iff ?_ ?_, ?_, refused_iff ?_ ?_, ?_⟩
  · intro hb
    exact ⟨_, divide_of_zero hb, rfl, message_divisionByZero a⟩
  · intro hb
    exact ⟨_, divide_of_ne_zero hb⟩
  · intro hb
    exact ⟨_, divMod_of_zero hb, rfl, message_divisionByZero a⟩
  · intro hb
    exact ⟨_, divMod_of_ne_zero hb⟩
  · intro hb
    exact ⟨_, _, divide_of_ne_zero hb, divMod_of_ne_zero hb, divides hb⟩
  · intro hb
    exact ⟨_, mod_of_nonpos hb, rfl⟩
  · intro hb
    exact ⟨_, mod_of_pos (by omega)⟩
  · intro hb
    exact ⟨_, _, divMod_of_ne_zero (by omega), mod_of_pos hb⟩

/-- Minus one hundred, in base seven, by eight in base two, then by zero, and
then with a modulus below zero. -/
theorem minus_one_hundred_by_eight :
    let a : Numeral := .ofDigits 7 [2, 0, 2] true (by decide) (by decide)
    let b : Numeral := .ofDigits 2 [0, 0, 0, 1] false (by decide) (by decide)
    (∃ q r, a.divide b = .ok q ∧ a.divMod b = .ok (q, r) ∧ q.toInt = -12 ∧ r.toInt = -4) ∧
      (∃ e, a.divide zero = .error e ∧ e.message = "Division by zero: -100") ∧
      (∃ r, a.mod b = .ok r ∧ r.toInt = -4) ∧
      ∃ e, a.mod b.neg = .error e ∧ e.kind = .operand := by
  intro a b
  have ha : a.toInt = -100 := by decide
  have hb : b.toInt = 8 := by decide
  have htext : a.text = (Decimal.ofTopDigits [1, 0, 0] true).toNumeral.text := text_eq (by decide)
  obtain ⟨_, _, hdivide, _, hmod⟩ := quotients_go_toward_zero a b
  obtain ⟨q, r, hq, hqr, hdivides⟩ := hdivide (by rw [hb]; decide)
  obtain ⟨q', r', hqr', hr'⟩ := hmod (by rw [hb]; decide)
  cases hqr.symm.trans hqr'
  have hquotient : q.toInt = -12 := by
    rw [hdivides.towardZero, ha, hb]
    rfl
  have hrest : r.toInt = -4 := by
    have hwhole := hdivides.whole
    rw [ha, hb, hquotient] at hwhole
    omega
  refine ⟨⟨q, r, hq, hqr, hquotient, hrest⟩, ?_, ⟨r, hr', hrest⟩, ?_⟩
  · obtain ⟨e, he, _, hmessage⟩ := (quotients_go_toward_zero a zero).1.2 (by decide)
    rw [htext] at hmessage
    exact ⟨e, he, hmessage⟩
  · apply (quotients_go_toward_zero a b.neg).2.2.2.1.2
    rw [toInt_neg, hb]
    decide

end Abacus.Numeral
