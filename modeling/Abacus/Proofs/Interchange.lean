-- Numerals of one integer are interchangeable. The base that a number is held
-- in never shows in a result, and no error tells of it either: what a report
-- prints of a numeral is the integer it stands for.
import Abacus.Numeral.Radix
import Abacus.Expression.Operator

namespace Abacus

/-- What a caller learns of an outcome: the result, or the report of the error. -/
def told {α : Type} (outcome : Except Error α) : Except Report α :=
  outcome.mapError Error.report

theorem told_map {α β : Type} (f : α → β) (outcome : Except Error α) :
    told (outcome.map f) = (told outcome).map f := by
  cases outcome <;> rfl

namespace Numeral

variable {a b c d : Numeral}

theorem text_eq (h : a.toInt = c.toInt) : a.text = c.text := by
  unfold text
  rw [toDecimal_eq_iff.2 h]

theorem negative_eq (h : a.toInt = c.toInt) : a.negative = c.negative := by
  rw [Bool.eq_iff_iff, negative_iff, negative_iff, h]

theorem isZero_eq (h : a.toInt = c.toInt) : a.isZero = c.isZero := by
  rw [Bool.eq_iff_iff, isZero_iff, isZero_iff, ← toInt_eq_zero, ← toInt_eq_zero, h]

/-! ## Operations that always have a result -/

theorem add_congr (ha : a.toInt = c.toInt) (hb : b.toInt = d.toInt) : a.add b = c.add d := by
  unfold add
  rw [toDecimal_eq_iff.2 ha, toDecimal_eq_iff.2 hb]

theorem sub_congr (ha : a.toInt = c.toInt) (hb : b.toInt = d.toInt) : a.sub b = c.sub d := by
  unfold sub
  rw [toDecimal_eq_iff.2 ha, toDecimal_eq_iff.2 hb]

theorem mul_congr (ha : a.toInt = c.toInt) (hb : b.toInt = d.toInt) : a.mul b = c.mul d := by
  unfold mul
  rw [toDecimal_eq_iff.2 ha, toDecimal_eq_iff.2 hb]

theorem half_congr (ha : a.toInt = c.toInt) : a.half = c.half := by
  unfold half
  rw [toDecimal_eq_iff.2 ha]

theorem cmp_congr (ha : a.toInt = c.toInt) (hb : b.toInt = d.toInt) : a.cmp b = c.cmp d := by
  unfold cmp
  rw [toDecimal_eq_iff.2 ha, toDecimal_eq_iff.2 hb]

theorem cmpMagnitude_congr (ha : a.toInt = c.toInt) (hb : b.toInt = d.toInt) :
    a.cmpMagnitude b = c.cmpMagnitude d := by
  unfold cmpMagnitude
  rw [toDecimal_eq_iff.2 ha, toDecimal_eq_iff.2 hb]

theorem pow_congr (ha : a.toInt = c.toInt) (n : Int) : a.pow n = c.pow n := by
  unfold pow
  rw [toDecimal_eq_iff.2 ha]

theorem inBase_congr (ha : a.toInt = c.toInt) (radix : Nat) (h : 2 ≤ radix) :
    a.inBase radix h = c.inBase radix h := by
  unfold inBase
  rw [negative_eq ha, isZero_eq ha]
  simp only [toDecimal_eq_iff.2 ha]

/-! ## Reports -/

theorem report_outsideDomain (reason : String) (h : a.toInt = c.toInt) :
    (Error.outsideDomain reason a).report = (Error.outsideDomain reason c).report := by
  simp only [Error.report, Report.operand, Report.blame, Datum.alone, text_eq h]

theorem report_divisionByZero (h : a.toInt = c.toInt) :
    (Error.divisionByZero a).report = (Error.divisionByZero c).report := by
  simp only [Error.report, Report.divisionByZero, Datum.alone, text_eq h]

theorem report_outsideWord (h : a.toInt = c.toInt) :
    (Error.outsideWord a).report = (Error.outsideWord c).report := by
  simp only [Error.report, Report.overflow, List.map_cons, List.map_nil, Datum.alone, text_eq h]

/-! ## Operations that can be refused -/

theorem told_divide (ha : a.toInt = c.toInt) (hb : b.toInt = d.toInt) :
    told (a.divide b) = told (c.divide d) := by
  unfold divide
  rw [isZero_eq hb, toDecimal_eq_iff.2 ha, toDecimal_eq_iff.2 hb]
  split
  · exact congrArg Except.error (report_divisionByZero ha)
  · rfl

theorem told_divMod (ha : a.toInt = c.toInt) (hb : b.toInt = d.toInt) :
    told (a.divMod b) = told (c.divMod d) := by
  unfold divMod
  rw [isZero_eq hb, toDecimal_eq_iff.2 ha, toDecimal_eq_iff.2 hb]
  split
  · exact congrArg Except.error (report_divisionByZero ha)
  · rfl

theorem told_mod (ha : a.toInt = c.toInt) (hb : b.toInt = d.toInt) :
    told (a.mod b) = told (c.mod d) := by
  by_cases h : b.toInt ≤ 0
  · rw [mod_of_nonpos h, mod_of_nonpos (hb ▸ h)]
    exact congrArg Except.error (report_outsideDomain _ hb)
  · have hpos := Int.lt_of_not_ge h
    rw [mod_eq_map hpos, mod_eq_map (hb ▸ hpos), told_map, told_map, told_divMod ha hb]

theorem told_root (ha : a.toInt = c.toInt) : told a.root = told c.root := by
  by_cases h : a.toInt < 0
  · rw [root_of_neg h, root_of_neg (ha ▸ h)]
    exact congrArg Except.error (report_outsideDomain _ ha)
  · have hnonneg := Int.le_of_not_gt h
    rw [root_of_nonneg hnonneg, root_of_nonneg (ha ▸ hnonneg), toDecimal_eq_iff.2 ha]

theorem told_toWord (ha : a.toInt = c.toInt) : told a.toWord = told c.toWord := by
  unfold toWord
  rw [ha]
  split
  · rfl
  · exact congrArg Except.error (report_outsideWord ha)

theorem told_powNumeral (ha : a.toInt = c.toInt) (hb : b.toInt = d.toInt) :
    told (a.powNumeral b) = told (c.powNumeral d) := by
  have hmap : ∀ x e : Numeral, x.powNumeral e = e.toWord.map x.pow := by
    intro x e
    unfold powNumeral
    cases e.toWord <;> rfl
  rw [hmap, hmap, told_map, told_map, told_toWord hb, funext (pow_congr ha)]

theorem told_convert (ha : a.toInt = c.toInt) (hb : b.toInt = d.toInt) :
    told (a.convert (.numeral b)) = told (c.convert (.numeral d)) := by
  unfold convert ofDatum
  dsimp only [bind, Except.bind]
  rw [hb]
  simp only [inBase_congr ha]

theorem told_apply (symbol : Symbol) (ha : a.toInt = c.toInt) (hb : b.toInt = d.toInt) :
    told (symbol.apply a b) = told (symbol.apply c d) := by
  cases symbol with
  | operator op =>
    cases op with
    | add => exact congrArg Except.ok (add_congr ha hb)
    | subtract => exact congrArg Except.ok (sub_congr ha hb)
    | multiply => exact congrArg Except.ok (mul_congr ha hb)
    | divide => exact told_divide ha hb
    | mod => exact told_mod ha hb
    | power => exact told_powNumeral ha hb
  | opening => rfl
  | closing => rfl

/-! ## Nothing tells them apart -/

/-- Nothing that is worked out from `a` and `b` tells them from `c` and `d`. -/
structure Interchangeable (a b c d : Numeral) : Prop where
  cmp : a.cmp b = c.cmp d
  cmpMagnitude : a.cmpMagnitude b = c.cmpMagnitude d
  add : a.add b = c.add d
  sub : a.sub b = c.sub d
  mul : a.mul b = c.mul d
  half : a.half = c.half
  divide : told (a.divide b) = told (c.divide d)
  divMod : told (a.divMod b) = told (c.divMod d)
  mod : told (a.mod b) = told (c.mod d)
  powNumeral : told (a.powNumeral b) = told (c.powNumeral d)
  root : told a.root = told c.root
  convert : told (a.convert (.numeral b)) = told (c.convert (.numeral d))
  apply : ∀ symbol : Symbol, told (symbol.apply a b) = told (symbol.apply c d)
  toWord : told a.toWord = told c.toWord
  text : a.text = c.text

theorem interchangeable (ha : a.toInt = c.toInt) (hb : b.toInt = d.toInt) :
    Interchangeable a b c d where
  cmp := cmp_congr ha hb
  cmpMagnitude := cmpMagnitude_congr ha hb
  add := add_congr ha hb
  sub := sub_congr ha hb
  mul := mul_congr ha hb
  half := half_congr ha
  divide := told_divide ha hb
  divMod := told_divMod ha hb
  mod := told_mod ha hb
  powNumeral := told_powNumeral ha hb
  root := told_root ha
  convert := told_convert ha hb
  apply symbol := told_apply symbol ha hb
  toWord := told_toWord ha
  text := text_eq ha

end Numeral

end Abacus
