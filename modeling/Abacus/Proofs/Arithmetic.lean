-- The laws of arithmetic on digits. Numbers of any bases are worked on in base
-- ten, the work never runs out of digits or of room, and what it leaves is the
-- canonical form of the right number, under the right sign.
import Abacus.Proofs.Canonical
import Abacus.Proofs.Interchange

namespace Abacus.Numeral

theorem magnitude_toDecimal (a : Numeral) : a.toDecimal.magnitude = a.magnitude := by
  rw [← natAbs_toInt, toInt_toDecimal, natAbs_toInt]

theorem negative_toDecimal (a : Numeral) : a.toDecimal.negative = a.negative :=
  negative_eq a.toInt_toDecimal

/-! ## Sums and differences -/

/-- The digits pass the checks of a new numeral in base ten, and under this sign
they make the numeral `r`. -/
def Makes (ds : List Nat) (negative : Bool) (r : Numeral) : Prop :=
  ofDigitData (listed ds) (.integer 10) (.truth negative) = .ok r

/-- How the digits of two numbers combine. Magnitudes that count the same way are
carried together. Of two that count against each other the smaller one is taken
from the larger, which never runs out of digits to borrow from and gives its sign
to the result. -/
inductive Combined (a b : Numeral) : (sameWay : Bool) → Numeral → Prop
  | carried {r : Numeral} :
      Makes (Digits.add 10 a.inDecimal.digits b.inDecimal.digits) a.negative r →
      Combined a b true r
  | borrowed {ds : List Nat} {r : Numeral} : b.magnitude ≤ a.magnitude →
      Digits.sub? 10 a.inDecimal.digits b.inDecimal.digits = some ds →
      Makes ds a.negative r → Combined a b false r
  | turned {ds : List Nat} {r : Numeral} : a.magnitude < b.magnitude →
      Digits.sub? 10 b.inDecimal.digits a.inDecimal.digits = some ds →
      Makes ds (!a.negative) r → Combined a b false r

theorem makes_ofDigits {ds : List Nat} (h : Digits.Fits 10 ds) (negative : Bool) :
    Makes ds negative (Decimal.ofDigits ds negative h).toNumeral :=
  ofDigitData_listed (by decide) h (.truth negative)

theorem makes_lessen {a b : Decimal} (h : b.magnitude ≤ a.magnitude) (negative : Bool) :
    ∃ ds, Digits.sub? 10 a.digits b.digits = some ds ∧
      Makes ds negative (a.lessen b negative h).toNumeral :=
  ⟨_, (Option.some_get _).symm, makes_ofDigits _ negative⟩

section

variable (a b : Numeral)

theorem combined_join :
    Combined a b true (a.toDecimal.join b.toDecimal a.toDecimal.negative).toNumeral := by
  rw [negative_toDecimal]
  exact .carried (makes_ofDigits _ a.negative)

theorem combined_lessen (h : b.toDecimal.magnitude ≤ a.toDecimal.magnitude) :
    Combined a b false (a.toDecimal.lessen b.toDecimal a.toDecimal.negative h).toNumeral := by
  obtain ⟨ds, hds, hmakes⟩ := makes_lessen h a.toDecimal.negative
  rw [magnitude_toDecimal, magnitude_toDecimal] at h
  rw [negative_toDecimal] at hmakes ⊢
  exact .borrowed h hds hmakes

theorem combined_turned {negative : Bool} (hsign : negative = !a.toDecimal.negative)
    (hlt : a.toDecimal.cmpMagnitude b.toDecimal = .lt) :
    Combined a b false (b.toDecimal.lessen a.toDecimal negative
      (Decimal.le_of_cmpMagnitude hlt)).toNumeral := by
  obtain ⟨ds, hds, hmakes⟩ := makes_lessen (Decimal.le_of_cmpMagnitude hlt) negative
  rw [Decimal.cmpMagnitude_eq, Nat.compare_eq_lt, magnitude_toDecimal, magnitude_toDecimal] at hlt
  rw [negative_toDecimal] at hsign
  subst hsign
  exact .turned hlt hds hmakes

theorem combined_add : Combined a b (a.negative == b.negative) (a.add b) := by
  rw [← negative_toDecimal a, ← negative_toDecimal b]
  unfold add Decimal.add
  split
  · rename_i hsame
    rw [beq_iff_eq.2 hsame]
    exact combined_join a b
  · rename_i hother
    rw [beq_eq_false_iff_ne.2 hother]
    split
    · rename_i hlt
      exact combined_turned a b (Bool.eq_not.2 (Ne.symm hother)) hlt
    · exact combined_lessen a b _

theorem combined_sub : Combined a b (a.negative != b.negative) (a.sub b) := by
  rw [← negative_toDecimal a, ← negative_toDecimal b]
  unfold sub Decimal.sub
  split
  · rename_i hother
    rw [bne_iff_ne.2 hother]
    exact combined_join a b
  · rename_i hsame
    rw [bne_eq_false_iff_eq.2 (Decidable.of_not_not hsame)]
    split
    · rename_i hlt
      exact combined_turned a b rfl hlt
    · exact combined_lessen a b _

theorem exact_add : Exact (a.toInt + b.toInt) (a.add b) :=
  exact_of_toInt (by simp)

theorem exact_sub : Exact (a.toInt - b.toInt) (a.sub b) :=
  exact_of_toInt (by simp)

theorem sub_eq_add_neg : a.sub b = a.add b.neg := by
  have hsum := exact_add a b.neg
  rw [toInt_neg, ← Int.sub_eq_add_neg] at hsum
  exact (exact_sub a b).eq hsum

end

/-- For every pair of signs and of magnitudes, sums and differences never run out
of digits to borrow from, and their digits pass the checks of a new numeral. That
numeral is exact: canonical, in base ten, and without a minus where it is zero. To
subtract is to add the number with the other sign. -/
theorem sums_and_differences_are_exact (a b : Numeral) :
    (Combined a b (a.negative == b.negative) (a.add b) ∧
        Exact (a.toInt + b.toInt) (a.add b)) ∧
      (Combined a b (a.negative != b.negative) (a.sub b) ∧
        Exact (a.toInt - b.toInt) (a.sub b)) ∧
      a.sub b = a.add b.neg :=
  ⟨⟨combined_add a b, exact_add a b⟩, ⟨combined_sub a b, exact_sub a b⟩, sub_eq_add_neg a b⟩

/-! ## Products -/

/-- The buffer that the rows of a product are added up in has room for all of
them, and in the end every place of it holds one digit. -/
theorem exists_buffer (a b : Numeral) :
    ∃ buffer, Digits.mul? 10 a.inDecimal.digits b.inDecimal.digits = some buffer ∧
      buffer.length = a.inDecimal.length + b.inDecimal.length + 1 ∧ Digits.Fits 10 buffer ∧
      Digits.value 10 buffer = a.magnitude * b.magnitude := by
  obtain ⟨buffer, hbuffer, hlength, hfits, hvalue⟩ :=
    Digits.mul?_eq_some (by decide) a.toDecimal.fits_ten b.toDecimal.fits_ten
  refine ⟨buffer, hbuffer, hlength, hfits, ?_⟩
  rw [hvalue, ← Decimal.magnitude_eq, ← Decimal.magnitude_eq, magnitude_toDecimal,
    magnitude_toDecimal]

/-- The digits of the buffer, under the sign of the product, are the product. -/
theorem ofDigits_buffer {a b : Numeral} {buffer : List Nat} (h : Digits.Fits 10 buffer)
    (hvalue : Digits.value 10 buffer = a.magnitude * b.magnitude) :
    ofDigits 10 buffer (a.negative != b.negative) (by decide) h = a.mul b := by
  have hbase : (ofDigits 10 buffer (a.negative != b.negative) (by decide) h).base =
      (a.mul b).base := (Decimal.base_eq _).symm
  apply eq_of_toInt hbase
  rw [toInt_ofDigits, hvalue, toInt_mul, toInt_mul_toInt]

/-- Where no factor is zero, the rows are added up, and their buffer makes the
product. -/
theorem makes_mul {a b : Decimal} (ha : a.toInt ≠ 0) (hb : b.toInt ≠ 0) :
    ∃ buffer, Digits.mul? 10 a.digits b.digits = some buffer ∧
      Makes buffer (a.negative != b.negative) (a.mul b).toNumeral := by
  have hfactors : ¬ (a.isZero || b.isZero) = true := by
    rw [Bool.or_eq_true, isZero_iff_toInt, isZero_iff_toInt]
    exact fun h => h.elim ha hb
  unfold Decimal.mul
  rw [if_neg hfactors]
  exact ⟨_, (Option.some_get _).symm, makes_ofDigits _ _⟩

/-- The rows of a product never leave their buffer, and the digits they leave
in it pass the checks of a new numeral. That numeral is the product: canonical,
in base ten, and without a minus where a factor is zero. -/
theorem products_are_exact (a b : Numeral) :
    (∃ buffer, Digits.mul? 10 a.inDecimal.digits b.inDecimal.digits = some buffer ∧
        buffer.length = a.inDecimal.length + b.inDecimal.length + 1 ∧
        ofDigitData (listed buffer) (.integer 10) (.truth (a.negative != b.negative)) =
          .ok (a.mul b)) ∧
      (a.mul b).base = 10 ∧ Canonical (a.mul b).base (a.mul b).digits (a.mul b).negative ∧
      (a.mul b).toInt = a.toInt * b.toInt ∧
      (a.toInt = 0 ∨ b.toInt = 0 → (a.mul b).negative = false) := by
  obtain ⟨buffer, hbuffer, hlength, hfits, hvalue⟩ := exists_buffer a b
  refine ⟨⟨buffer, hbuffer, hlength, ?_⟩, Decimal.base_eq _, canonical _, toInt_mul a b, ?_⟩
  · have htaken := ofDigitData_listed (by decide) hfits (.truth (a.negative != b.negative))
    exact htaken.trans (congrArg Except.ok (ofDigits_buffer hfits hvalue))
  · intro hzero
    apply not_negative_of_magnitude
    rw [← toInt_eq_zero, toInt_mul]
    exact Int.mul_eq_zero.2 hzero

/-- Minus ninety-nine, in base sixteen, by ninety-nine in base seven, and then
by zero. -/
theorem minus_ninety_nine_by_ninety_nine :
    let a : Numeral := .ofDigits 16 [3, 6] true (by decide) (by decide)
    let b : Numeral := .ofDigits 7 [1, 0, 2] false (by decide) (by decide)
    ((a.mul b).toInt = -9801 ∧ Canonical (a.mul b).base (a.mul b).digits (a.mul b).negative) ∧
      (a.mul zero).toInt = 0 ∧ (a.mul zero).negative = false := by
  intro a b
  obtain ⟨_, _, hcanonical, hproduct, _⟩ := products_are_exact a b
  obtain ⟨_, _, _, hzero, hsign⟩ := products_are_exact a zero
  exact ⟨⟨hproduct.trans (by decide), hcanonical⟩, hzero.trans (by decide), hsign (by decide)⟩

end Abacus.Numeral
