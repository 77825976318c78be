-- The laws of limbs. A base that is a power of ten holds whole decimal digits in
-- each of its own, so its numerals are taken apart and put together digit by
-- digit. What comes out is what dividing, multiplying and adding give as well,
-- to the last digit, and no other base is ever taken apart.
import Abacus.Proofs.Conversion
import Abacus.Proofs.Powers
import Abacus.Proofs.Spelling

namespace Abacus

namespace Digits

/-- Exactly the powers of ten are found, zeros at the end or not. -/
theorem tenPower?_eq_some_iff {base width : Nat} :
    tenPower? base = some width ↔ base = 10 ^ width := by
  rw [← weight_eq_pow]
  constructor
  · exact tenPower?_eq_some
  · rintro rfl
    exact tenPower?_weight width

end Digits

namespace Numeral

/-! ## Ways to a decimal -/

/-- How the decimal of a numeral comes about: it is the numeral itself, its limbs
are taken apart, or its digits are summed up. -/
inductive Way where
  | itself
  | apart (width : Nat)
  | summed

/-- One way to a decimal, with what decides for it. -/
inductive Decoded (a : Numeral) : Way → Decimal → Prop
  | itself (h : a.base = 10) : Decoded a .itself ⟨a, h⟩
  | apart {width : Nat} : a.base ≠ 10 → Digits.tenPower? a.base = some width →
      Decoded a (.apart width) (a.unpacked width)
  | summed : a.base ≠ 10 → Digits.tenPower? a.base = none → Decoded a .summed a.summed

theorem exists_decoded (a : Numeral) : ∃ way, Decoded a way a.toDecimal := by
  unfold toDecimal
  split
  · exact ⟨_, .itself _⟩
  · rename_i hten
    split
    · rename_i width hwidth
      exact ⟨_, .apart hten hwidth⟩
    · rename_i hnone
      exact ⟨_, .summed hten hnone⟩

section

variable {a : Numeral} {way other : Way} {d e : Decimal}

/-- The base decides for one way. -/
theorem Decoded.way_eq (h : Decoded a way d) (ho : Decoded a other e) : way = other := by
  cases h with
  | itself hten =>
    cases ho with
    | itself _ => rfl
    | apart hother _ | summed hother _ => exact absurd hten hother
  | apart hten hwidth =>
    cases ho with
    | itself hother => exact absurd hother hten
    | apart _ hother => rw [Option.some.inj (hwidth.symm.trans hother)]
    | summed _ hother => cases hwidth.symm.trans hother
  | summed hten hnone =>
    cases ho with
    | itself hother => exact absurd hother hten
    | apart _ hother => cases hnone.symm.trans hother
    | summed _ _ => rfl

theorem Decoded.base_eq {width : Nat} (h : Decoded a (.apart width) d) : a.base = 10 ^ width := by
  cases h with
  | apart _ hwidth => exact Digits.tenPower?_eq_some_iff.1 hwidth

end

/-- Limbs taken apart are the digits that multiplying and adding give. -/
theorem unpacked_eq_summed {a : Numeral} {width : Nat} (h : a.base = 10 ^ width) :
    a.unpacked width = a.summed := by
  rw [← Digits.weight_eq_pow] at h
  apply Decimal.eq_of_toInt
  rw [toInt_unpacked h, toInt_summed]

/-- Whatever base holds a number, its decimal is the canonical one, with the same
sign. Where the base is a power of ten, limbs taken apart and digits summed up are
the same decimal, digit by digit. The powers of ten are found among all bases
without a miss, and a numeral of any other base is never taken apart. -/
theorem all_ways_to_a_decimal_agree (a : Numeral) :
    Exact a.toInt a.inDecimal ∧ a.inDecimal.negative = a.negative ∧
      (∀ width, a.base = 10 ^ width → a.unpacked width = a.summed) ∧
      (∀ width, Digits.tenPower? a.base = some width ↔ a.base = 10 ^ width) ∧
      ∃ way, Decoded a way a.toDecimal ∧ (∀ other d, Decoded a other d → other = way) ∧
        ∀ width, way = .apart width → a.base = 10 ^ width := by
  have hexact : Exact a.toInt a.inDecimal := exact_of_toInt (toInt_toDecimal a)
  obtain ⟨way, hway⟩ := exists_decoded a
  refine ⟨hexact, ?_, fun width => unpacked_eq_summed,
    fun width => Digits.tenPower?_eq_some_iff, way, hway, ?_, ?_⟩
  · rw [Bool.eq_iff_iff, hexact.sign, negative_iff]
  · intro other d hother
    exact hother.way_eq hway
  · rintro width rfl
    exact hway.base_eq

/-- A number below zero in thousands, with a limb that is zero and one that starts
with zeros, and the same digits in base fifteen hundred. -/
theorem thousands_and_fifteen_hundreds :
    let thousands : Numeral := .ofDigits 1000 [7, 0, 12] true (by decide) (by decide)
    let others : Numeral := .ofDigits 1500 [7, 0, 12] true (by decide) (by decide)
    (thousands.unpacked 3 = thousands.summed ∧ Exact (-12000007) thousands.inDecimal ∧
        Decoded thousands (.apart 3) thousands.toDecimal) ∧
      Exact (-27000007) others.inDecimal ∧ Decoded others .summed others.toDecimal := by
  intro thousands others
  have hthousands : thousands.toInt = -12000007 := by decide
  have hothers : others.toInt = -27000007 := by decide
  have hnone : Digits.tenPower? 1500 = none := by simp [Digits.tenPower?]
  obtain ⟨hexact, _, hsame, hfound, way, hway, honly, _⟩ := all_ways_to_a_decimal_agree thousands
  obtain ⟨hexact', _, _, _, way', hway', honly', _⟩ := all_ways_to_a_decimal_agree others
  have hthree : thousands.base = 10 ^ 3 := rfl
  rw [hthousands] at hexact
  rw [hothers] at hexact'
  refine ⟨⟨hsame 3 hthree, hexact, ?_⟩, hexact', ?_⟩
  · rwa [honly _ _ (.apart (by decide) ((hfound 3).2 hthree))]
  · rwa [honly' _ _ (.summed (by decide) hnone)]

/-! ## Ways to limbs -/

theorem ofText_toString (n : Int) : ofText (toString n) = .ok (Decimal.ofInt n).toNumeral := by
  rw [ofText_eq_map, Decimal.ofText_iff.2 (Text.spells_toString n)]
  rfl

theorem base_ofInt {n : Int} (h : 1 < n) : (ofInt n).base = limbBase := by
  rw [ofInt_of_one_lt h]
  rfl

/-- Dividing again and again leaves over the limbs that packing gives. -/
theorem convert_limbBase {a : Numeral} {n : Int} (h : a.toInt = n) (hn : 1 < n) :
    a.convert (.integer limbBase) = .ok (ofInt n) := by
  subst h
  have hpos : 0 < a.toInt := by omega
  have hbase : (ofInt limbBase).toInt = limbBase := toInt_ofInt _
  rw [convert_of_two_le rfl (by rw [hbase]; decide)]
  refine congrArg Except.ok (eq_of_toInt ?_ ?_)
  · rw [base_inBase _ hpos, base_ofInt hn, hbase]
    rfl
  · rw [toInt_inBase _ hpos, toInt_ofInt]

/-- An integer above one is held in limbs of nine digits. They are the ones that
its text gives by dividing again and again, and in base ten they are the digits of
its text. Every other integer is held as its text is read. -/
theorem both_ways_to_limbs_agree (n : Int) :
    ∃ a, ofText (toString n) = .ok a ∧
      (1 < n → ∃ w, ofIntDatum (.integer n) = .ok w ∧
        a.convert (.integer (10 ^ 9)) = .ok w ∧
        w.base = 10 ^ 9 ∧ w.negative = false ∧ w.inDecimal = a) ∧
      (n ≤ 1 → ofIntDatum (.integer n) = .ok a) := by
  have ha : (Decimal.ofInt n).toNumeral.toInt = n := Decimal.toInt_ofInt n
  refine ⟨_, ofText_toString n, fun hn => ?_, fun hn => ?_⟩
  · refine ⟨ofInt n, rfl, convert_limbBase ha hn, base_ofInt hn, ?_, ?_⟩
    · rw [← Bool.not_eq_true, negative_iff, toInt_ofInt]
      omega
    · refine congrArg Decimal.toNumeral (Decimal.eq_of_toInt ?_)
      rw [toInt_toDecimal, toInt_ofInt, Decimal.toInt_ofInt]
  · exact congrArg Except.ok (ofInt_of_le_one hn)

/-- Five billion billions and seven, with a limb that is zero, and one and a number
below zero. -/
theorem a_limb_of_zeros_and_two_small_numbers :
    (∃ a w, ofText "5000000000000000007" = .ok a ∧
        ofIntDatum (.integer 5000000000000000007) = .ok w ∧
        a.convert (.integer (10 ^ 9)) = .ok w ∧ w.inDecimal = a) ∧
      (∃ a, ofText "1" = .ok a ∧ ofIntDatum (.integer 1) = .ok a) ∧
      ∃ a, ofText "-12" = .ok a ∧ ofIntDatum (.integer (-12)) = .ok a := by
  obtain ⟨a, ha, hlimbs, _⟩ := both_ways_to_limbs_agree 5000000000000000007
  obtain ⟨b, hb, _, hone⟩ := both_ways_to_limbs_agree 1
  obtain ⟨c, hc, _, hbelow⟩ := both_ways_to_limbs_agree (-12)
  obtain ⟨w, hw, hconvert, _, _, hback⟩ := hlimbs (by decide)
  exact ⟨⟨a, w, ha, hw, hconvert, hback⟩, ⟨b, hb, hone (by decide)⟩, c, hc, hbelow (by decide)⟩

end Numeral

end Abacus
