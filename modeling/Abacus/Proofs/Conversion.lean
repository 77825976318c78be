-- The laws of changing the base. Dividing by the new base comes to an end for
-- every number, and what each division leaves over is a digit of the same
-- number. So nothing is lost on the way to another base and back, and a number
-- that is held in the base already comes out as it is.
import Abacus.Numeral.Radix

namespace Abacus

namespace Decimal

/-! ## Dividing until nothing is left -/

/-- Dividing the running number by the radix until it is zero leaves these
digits over, the first one first. -/
inductive Divided (radix : Decimal) : Decimal → List Nat → Prop
  | done {running : Decimal} : running.isZero = true → Divided radix running []
  | step {running : Decimal} {d : Nat} {ds : List Nat} : running.isZero = false →
      (running.divMod radix).2.toInt = d → Divided radix (running.divMod radix).1 ds →
      Divided radix running (d :: ds)

/-- The quotient is smaller than the running number, so the divisions end. -/
theorem divided_remainders {radix running : Decimal} (hr : 2 ≤ radix.toInt)
    (h : 0 ≤ running.toInt) : Divided radix running (remainders radix running) := by
  have hr0 : radix.toInt ≠ 0 := by omega
  fun_induction remainders radix running with
  | case1 running hpos parts ih =>
    have hq : 0 ≤ parts.1.toInt := by
      rw [divMod_fst, toInt_quotient hr0]
      exact Int.tdiv_nonneg h (by omega)
    have hrest : 0 ≤ parts.2.toInt := by
      rw [toInt_divMod_snd hr0]
      exact Int.tmod_nonneg _ h
    refine .step ?_ ?_ (ih hq)
    · rw [← Bool.not_eq_true, Numeral.isZero_iff_toInt]
      omega
    · rw [← Numeral.natAbs_toInt]
      exact (Int.natAbs_of_nonneg hrest).symm
  | case2 running hpos =>
    exact .done (Numeral.isZero_iff_toInt.2 (by omega))

end Decimal

namespace Numeral

/-! ## Converting -/

section

variable {a radix : Numeral} {base : Datum}

theorem convert_of_two_le (hbase : ofDatum base = .ok radix) (h : leastBase ≤ radix.toInt) :
    a.convert base = .ok (a.inBase radix.toInt.toNat (two_le_toNat h)) := by
  unfold convert requireBase
  rw [hbase]
  dsimp only [bind, Except.bind]
  rw [dif_pos h]
  rfl

theorem convert_of_lt_two (hbase : ofDatum base = .ok radix) (h : radix.toInt < leastBase) :
    a.convert base = .error (.baseTooSmall radix.toInt) := by
  unfold convert requireBase
  rw [hbase]
  dsimp only [bind, Except.bind]
  rw [dif_neg (by omega)]

end

section

variable {a : Numeral} {radix : Nat} (hr : 2 ≤ radix)
include hr

theorem inBase_of_nonpos (h : a.toInt ≤ 0) : a.inBase radix hr = zero := by
  unfold inBase
  rw [if_pos]
  rw [Bool.or_eq_true, negative_iff, isZero_iff, ← toInt_eq_zero]
  omega

theorem inBase_of_pos (h : 0 < a.toInt) :
    a.inBase radix hr = ofDigits radix (Decimal.remainders (.ofInt radix) a.toDecimal) false hr
      (Decimal.fits_remainders hr _) := by
  unfold inBase
  rw [if_neg]
  rw [Bool.or_eq_true, negative_iff, isZero_iff, ← toInt_eq_zero]
  omega

/-- The remainders are the digits of the number in the new base. -/
theorem remainders_of_pos (h : 0 < a.toInt) :
    Decimal.remainders (.ofInt radix) a.toDecimal = Digits.ofNat radix a.toInt.natAbs := by
  have hd : 0 ≤ a.toDecimal.toInt := by
    rw [toInt_toDecimal]
    omega
  rw [Decimal.remainders_eq_of_nonneg hr hd, ← natAbs_toInt, toInt_toDecimal]

/-- No zero is left at the top, so all the remainders are kept. -/
theorem digits_inBase (h : 0 < a.toInt) :
    (a.inBase radix hr).digits = Decimal.remainders (.ofInt radix) a.toDecimal := by
  rw [inBase_of_pos hr h]
  apply Digits.Trimmed.trim_eq
  rw [remainders_of_pos hr h]
  exact Digits.trimmed_ofNat hr (by omega)

theorem base_inBase (h : 0 < a.toInt) : (a.inBase radix hr).base = radix := by
  rw [inBase_of_pos hr h]
  rfl

theorem toInt_inBase (h : 0 < a.toInt) : (a.inBase radix hr).toInt = a.toInt := by
  rw [inBase_of_pos hr h, toInt_ofDigits, remainders_of_pos hr h, Digits.value_ofNat hr,
    if_neg (by decide)]
  omega

end

/-- In the base that holds it already a number is held in no other way. -/
theorem inBase_base {a : Numeral} (h : 0 < a.toInt) : a.inBase a.base a.two_le_base = a :=
  eq_of_toInt (base_inBase _ h) (toInt_inBase _ h)

/-! ## The laws -/

/-- `w` holds the number of `a` in the base `radix`, with the digits that
dividing leaves over. -/
structure Converted (a : Numeral) (radix : Int) (w : Numeral) : Prop where
  base : (w.base : Int) = radix
  divided : Decimal.Divided (.ofInt radix) a.toDecimal w.digits
  fits : ∀ d ∈ w.digits, (d : Int) < radix
  top : ∃ d, w.digits.getLast? = some d ∧ d ≠ 0
  number : w.toInt = a.toInt
  back : w.inDecimal = a.inDecimal

theorem converted_inBase {a : Numeral} {radix : Nat} (hr : 2 ≤ radix) (h : 0 < a.toInt) :
    Converted a radix (a.inBase radix hr) := by
  have hbase := base_inBase hr h
  have hnumber := toInt_inBase hr h
  have hdigits := digits_inBase hr h
  refine ⟨congrArg Nat.cast hbase, ?_, ?_, ?_, hnumber, ?_⟩
  · rw [hdigits]
    apply Decimal.divided_remainders
    · rw [Decimal.toInt_ofInt]
      omega
    · rw [toInt_toDecimal]
      omega
  · intro d hd
    have hlt := (a.inBase radix hr).fits d hd
    rw [hbase] at hlt
    exact Int.ofNat_lt.2 hlt
  · have htrimmed : Digits.Trimmed (a.inBase radix hr).digits := (a.inBase radix hr).trimmed
    have hlast := Digits.getLast?_ofNat hr a.toInt.natAbs
    rw [← remainders_of_pos hr h, ← hdigits] at hlast
    obtain ⟨d, hd⟩ := Option.ne_none_iff_exists'.1 fun h0 =>
      htrimmed.1 (List.getLast?_eq_none_iff.1 h0)
    exact ⟨d, hd, fun h0 => hlast (h0 ▸ hd)⟩
  · unfold inDecimal
    rw [toDecimal_eq_iff.2 hnumber]

/-- A base below two is refused, whatever the number. Every other base takes a
number above zero, digit by digit until nothing is left, and gives it back in
base ten unchanged; any other number becomes zero. In its own base a number
above zero stays as it is. -/
theorem conversion_keeps_the_number {base : Datum} {radix : Numeral}
    (h : ofDatum base = .ok radix) (a : Numeral) :
    ((∃ e, a.convert base = .error e ∧ e.kind = .operand) ↔ radix.toInt < 2) ∧
      (2 ≤ radix.toInt → a.toInt ≤ 0 → a.convert base = .ok zero) ∧
      (2 ≤ radix.toInt → 0 < a.toInt →
        ∃ w, a.convert base = .ok w ∧ Converted a radix.toInt w) ∧
      (radix.toInt = a.base → 0 < a.toInt → a.convert base = .ok a) := by
  refine ⟨⟨?_, ?_⟩, ?_, ?_, ?_⟩
  · rintro ⟨e, he, _⟩
    apply Int.lt_of_not_ge
    intro hr
    rw [convert_of_two_le h hr] at he
    cases he
  · intro hr
    exact ⟨_, convert_of_lt_two h hr, rfl⟩
  · intro hr ha
    rw [convert_of_two_le h hr, inBase_of_nonpos _ ha]
  · intro hr ha
    refine ⟨_, convert_of_two_le h hr, ?_⟩
    have hnat : (radix.toInt.toNat : Int) = radix.toInt := Int.toNat_of_nonneg (by omega)
    have hconverted := converted_inBase (two_le_toNat hr) ha
    rwa [hnat] at hconverted
  · intro hr ha
    have htwo := a.two_le_base
    have hr2 : leastBase ≤ radix.toInt := by
      unfold leastBase
      omega
    have hnat : radix.toInt.toNat = a.base := by omega
    rw [convert_of_two_le h hr2]
    simp only [hnat]
    rw [inBase_base ha]

/-- One hundred held in base seven: to base one, to base sixteen, from below
zero, and to base seven, which is given in bits. -/
theorem one_hundred_in_other_bases :
    let a : Numeral := .ofDigits 7 [2, 0, 2] false (by decide) (by decide)
    let seven : Numeral := .ofDigits 2 [1, 1, 1] false (by decide) (by decide)
    (∃ e, a.convert (.integer 1) = .error e ∧ e.kind = .operand) ∧
      (∃ w, a.convert (.text "16") = .ok w ∧ Converted a 16 w) ∧
      a.neg.convert (.text "16") = .ok zero ∧ a.convert (.numeral seven) = .ok a := by
  intro a seven
  have ha : a.toInt = 100 := by decide
  have hneg : a.neg.toInt = -100 := by rw [toInt_neg, ha]
  have h16 : ofDatum (.text "16") = .ok (Decimal.ofTopDigits [1, 6] false).toNumeral := rfl
  have hone := conversion_keeps_the_number (show ofDatum (.integer 1) = .ok (ofInt 1) from rfl) a
  have hsixteen := conversion_keeps_the_number h16
  have hseven := conversion_keeps_the_number (show ofDatum (.numeral seven) = .ok seven from rfl) a
  refine ⟨hone.1.2 ?_, (hsixteen a).2.2.1 (by decide) ?_, (hsixteen a.neg).2.1 (by decide) ?_,
    hseven.2.2.2 (by decide) ?_⟩
  · rw [toInt_ofInt]
    decide
  · rw [ha]
    decide
  · rw [hneg]
    decide
  · rw [ha]
    decide

end Numeral

end Abacus
