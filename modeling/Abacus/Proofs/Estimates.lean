-- The laws of the bounds that division and roots put on their searches. The lengths of
-- the numbers tell how long a quotient or a root can be, and the bound is the largest
-- number of that length. It never cuts the answer off: without it the search would end on
-- the same number.
import Abacus.Proofs.Arithmetic
import Abacus.Proofs.Bound
import Abacus.Proofs.Division
import Abacus.Proofs.Powers
import Abacus.Proofs.Roots

namespace Abacus

open Digits (weight)

theorem Digits.lt_of_weight_lt {base m n : Nat} (hb : 0 < base)
    (h : weight base m < weight base n) : m < n := by
  apply Nat.lt_of_not_le
  intro hle
  have hweight := weight_le hb hle
  omega

namespace Numeral

/-! ## Lengths -/

/-- How many digits a quotient has at most. -/
def quotientLength (a b : Numeral) : Nat := max (a.inDecimal.length + 1 - b.inDecimal.length) 1

/-- How many digits a root has: half as many as the number, rounded up. -/
def rootLength (a : Numeral) : Nat := (a.inDecimal.length + 1) / 2

/-- The largest number of this length. -/
def longest (length : Nat) : Numeral := (Decimal.nines length).toNumeral

theorem toInt_longest (length : Nat) : (longest length).toInt = 10 ^ length - 1 := by
  rw [longest, Decimal.toInt_nines, Digits.weight_eq_pow]
  simp

section

variable {a b r : Numeral}

theorem quotientLength_eq (a b : Numeral) :
    quotientLength a b = a.toDecimal.length - b.toDecimal.length + 1 := by
  unfold quotientLength inDecimal
  omega

theorem div_lt_weight (h : b.toInt ≠ 0) :
    a.magnitude / b.magnitude < weight 10 (quotientLength a b) := by
  have hlt := @Decimal.div_lt_weight a.toDecimal b.toDecimal
  rw [magnitude_toDecimal, magnitude_toDecimal, ← quotientLength_eq] at hlt
  exact hlt fun hzero => h (toInt_eq_zero.2 hzero)

theorem lt_weight_of_square_le {n : Nat} (h : n * n ≤ a.magnitude) :
    n < weight 10 (rootLength a) := by
  rw [← magnitude_toDecimal] at h
  exact Decimal.root_lt_weight h

theorem toInt_eq_magnitude (h : 0 ≤ a.toInt) : a.toInt = a.magnitude := by
  rw [← natAbs_toInt]
  omega

theorem SquareRoot.squares (h : SquareRoot a r) :
    r.magnitude * r.magnitude ≤ a.magnitude ∧
      a.magnitude < (r.magnitude + 1) * (r.magnitude + 1) := by
  have hle := h.square_le
  have hlt := h.lt_next_square
  have hnonneg : 0 ≤ a.toInt := Int.le_trans (Int.mul_nonneg h.nonnegative h.nonnegative) hle
  rw [toInt_eq_magnitude h.nonnegative, toInt_eq_magnitude hnonneg] at hle hlt
  exact ⟨by exact_mod_cast hle, by exact_mod_cast hlt⟩

/-- A root has half the digits of the number, rounded up: its square is as long as the
number or one digit shorter. -/
theorem SquareRoot.length_eq (h : SquareRoot a r) (ha : 1 ≤ a.toInt) :
    r.length = rootLength a := by
  obtain ⟨hle, hlt⟩ := h.squares
  have hmagnitude := natAbs_toInt a
  have hr : r.magnitude ≠ 0 := by
    intro hzero
    rw [hzero] at hlt
    omega
  have hshort : r.length - 1 < rootLength a := by
    apply Digits.lt_of_weight_lt (show 0 < 10 by decide)
    exact Nat.lt_of_le_of_lt (Decimal.weight_le_magnitude (a := ⟨r, h.inTen⟩) hr)
      (lt_weight_of_square_le hle)
  have hlong : a.inDecimal.length - 1 < r.length + r.length := by
    apply Digits.lt_of_weight_lt (show 0 < 10 by decide)
    have htop := @Decimal.weight_le_magnitude a.toDecimal (by rw [magnitude_toDecimal]; omega)
    rw [magnitude_toDecimal] at htop
    have hroom : r.magnitude + 1 ≤ weight 10 r.length := Decimal.magnitude_lt ⟨r, h.inTen⟩
    rw [Digits.weight_add]
    exact Nat.lt_of_le_of_lt htop (Nat.lt_of_lt_of_le hlt (Nat.mul_le_mul hroom hroom))
  have hpos := Decimal.length_pos ⟨r, h.inTen⟩
  unfold rootLength at hshort ⊢
  simp only at hpos
  omega

end

/-! ## A bound that is wide enough -/

section

variable {g : Numeral → Numeral} {target high : Numeral} {m : Decimal}

/-- Under a bound that is not below it, and without one, the largest number is the
answer. -/
theorem Largest.invert_eq {high : Option Numeral} (hm : Largest g target m) (hg : NeverFalls g)
    (honce : HitOnce g target) (hone : (g one).toInt ≤ target.toInt)
    (hhigh : m.toInt ≤ upperEnd target high) :
    invert (fun x => .ok (g x)) target high = .ok m.toNumeral := by
  have hpos := hm.pos
  have hle := hm.le
  have hsettles := Decimal.settles (imageOrder g target) .one (searchEnd target high) .one
  obtain ⟨hr, hrm, hcases⟩ := hm.eq_or_hit hg hone hhigh hsettles
  rw [invert_of_settles (by omega) hone hsettles, hm.eq_of_hitOnce hg honce hr hrm hcases]

/-- A bound that no number with a small enough image is above does not change the
answer. -/
theorem invert_eq_of_wide (hg : NeverFalls g) (honce : HitOnce g target)
    (htarget : 0 ≤ target.toInt) (hpos : 1 ≤ (g one).toInt)
    (hwide : ∀ x : Decimal, 1 ≤ x.toInt → (g x.toNumeral).toInt ≤ target.toInt →
      x.toInt ≤ high.toInt) :
    invert (fun x => .ok (g x)) target (some high) = invert (fun x => .ok (g x)) target none := by
  by_cases habove : target.toInt < (g one).toInt
  · rw [invert_of_nonneg htarget, invert_of_nonneg htarget, if_pos habove, if_pos habove]
  · have hone : (g one).toInt ≤ target.toInt := by omega
    obtain ⟨m, hm⟩ := exists_largest (by omega) hone
    have hend : m.toInt ≤ upperEnd target (some high) :=
      Int.le_min.2 ⟨hwide m hm.pos hm.image, hm.le⟩
    have hwhole : m.toInt ≤ upperEnd target none := hm.le
    rw [hm.invert_eq hg honce hone hend, hm.invert_eq hg honce hone hwhole]

/-- Inverting a function on numerals is bisecting it on decimals. -/
theorem invert_eq_bisect {f : Decimal → Decimal} (hf : ∀ x, (g x.toNumeral).toDecimal = f x)
    (htarget : 0 ≤ target.toInt) :
    invert (fun x => .ok (g x)) target (some high) =
      .ok (Id.run (Decimal.bisect (fun x => pure (f x)) target.toDecimal
        high.toDecimal)).toNumeral := by
  unfold invert
  rw [requireNonnegative_of_nonneg _ htarget]
  show (Decimal.bisect (fun x => (pure (g x.toNumeral).toDecimal : Except Error Decimal)) _ _ >>=
    fun found => pure found.toNumeral) = _
  simp only [hf]
  rw [Decimal.bisect_pure, Decimal.bisect_pure]
  rfl

end

/-! ## Multiples -/

section

variable {a b d target : Numeral}

theorem neverFalls_mul (hd : 0 < d.toInt) : NeverFalls fun x => x.mul d := by
  intro x y _ hxy
  rw [toInt_mul, toInt_mul]
  exact Int.mul_le_mul_of_nonneg_right hxy (by omega)

theorem hitOnce_mul (hd : 0 < d.toInt) : HitOnce (fun x => x.mul d) target := by
  intro x y _ _ _ hxt hyt
  rw [toInt_mul] at hxt hyt
  exact Decimal.eq_of_toInt (Int.eq_of_mul_eq_mul_right (by omega) (hxt.trans hyt.symm))

theorem toInt_abs_inDecimal (a : Numeral) : a.inDecimal.abs.toInt = a.magnitude := by
  rw [toInt_abs, toInt_inDecimal, natAbs_toInt]

theorem le_longest_of_mul_le (hb : b.toInt ≠ 0) {x : Decimal} (hx : 1 ≤ x.toInt)
    (h : (x.toNumeral.mul b.inDecimal.abs).toInt ≤ a.inDecimal.abs.toInt) :
    x.toInt ≤ (longest (quotientLength a b)).toInt := by
  have hbound := @div_lt_weight a b hb
  have hpos : 0 < b.magnitude := Nat.pos_of_ne_zero fun hzero => hb (toInt_eq_zero.2 hzero)
  obtain ⟨n, hn⟩ := Int.eq_ofNat_of_zero_le (show 0 ≤ x.toInt by omega)
  rw [toInt_mul, toInt_abs_inDecimal, toInt_abs_inDecimal, hn, ← Int.natCast_mul] at h
  have hquotient : n ≤ a.magnitude / b.magnitude :=
    (Nat.le_div_iff_mul_le hpos).2 (Int.ofNat_le.1 h)
  rw [longest, Decimal.toInt_nines]
  omega

theorem invert_mul (a b : Numeral) :
    invert (fun x => .ok (x.mul b.inDecimal.abs)) a.inDecimal.abs
        (some (longest (quotientLength a b))) =
      .ok (a.toDecimal.quotientMagnitude b.toDecimal).toNumeral := by
  have hmul : ∀ x : Decimal, (x.toNumeral.mul b.inDecimal.abs).toDecimal =
      x.mul b.toDecimal.abs := by
    intro x
    have habs : b.inDecimal.abs = b.toDecimal.abs.toNumeral := rfl
    unfold mul
    rw [habs, toDecimal_toNumeral, toDecimal_toNumeral, toDecimal_toNumeral]
  have habs : a.inDecimal.abs = a.toDecimal.abs.toNumeral := rfl
  rw [invert_eq_bisect hmul (by rw [toInt_abs_inDecimal]; omega), habs, longest,
    toDecimal_toNumeral, toDecimal_toNumeral, quotientLength_eq]
  rfl

/-- Without the bound the search finds the same quotient. -/
theorem invert_mul_free (hb : b.toInt ≠ 0) :
    invert (fun x => .ok (x.mul b.inDecimal.abs)) a.inDecimal.abs none =
      .ok (a.toDecimal.quotientMagnitude b.toDecimal).toNumeral := by
  have hpos : 0 < b.inDecimal.abs.toInt := by
    rw [toInt_abs, toInt_inDecimal]
    omega
  rw [← invert_mul a b]
  refine (invert_eq_of_wide (neverFalls_mul hpos) (hitOnce_mul hpos) ?_ ?_
    fun x => le_longest_of_mul_le hb).symm
  · rw [toInt_abs_inDecimal]
    omega
  · rw [toInt_mul, show one.toInt = 1 from Decimal.toInt_one]
    omega

theorem toInt_quotientMagnitude (a : Numeral) (hb : b.toInt ≠ 0) :
    (a.toDecimal.quotientMagnitude b.toDecimal).toInt =
      (a.toInt.natAbs / b.toInt.natAbs : Nat) := by
  have hvalue := @Decimal.toInt_quotientMagnitude a.toDecimal b.toDecimal
  rw [magnitude_toDecimal, magnitude_toDecimal, ← natAbs_toInt, ← natAbs_toInt] at hvalue
  exact hvalue (by omega)

theorem divide_eq_signed (hb : b.toInt ≠ 0) :
    a.divide b = .ok (if a.negative != b.negative
      then (a.toDecimal.quotientMagnitude b.toDecimal).toNumeral.neg
      else (a.toDecimal.quotientMagnitude b.toDecimal).toNumeral) := by
  rw [divide_of_ne_zero hb, quotient, Decimal.quotient, negative_toDecimal, negative_toDecimal]
  split <;> rfl

end

/-! ## Squares -/

section

variable {a : Numeral}

theorem le_longest_of_square_le {x : Decimal} (hx : 1 ≤ x.toInt)
    (h : (x.toNumeral.mul x.toNumeral).toInt ≤ a.inDecimal.toInt) :
    x.toInt ≤ (longest (rootLength a)).toInt := by
  obtain ⟨n, hn⟩ := Int.eq_ofNat_of_zero_le (show 0 ≤ x.toInt by omega)
  rw [toInt_mul, toInt_inDecimal, hn, ← Int.natCast_mul] at h
  have hmagnitude := natAbs_toInt a
  have hbound := @lt_weight_of_square_le a n (by omega)
  rw [longest, Decimal.toInt_nines]
  omega

theorem root_one (h : a.toInt = 1) : a.root = .ok Decimal.one.toNumeral := by
  have hone : a.toDecimal = .one := Decimal.eq_of_toInt (by simpa using h)
  rw [root_of_nonneg (by omega), hone]
  rfl

/-- From two on, a root is the search under the bound. -/
theorem invert_square_of_one_lt (ha : 1 < a.toInt) :
    invert (fun x => .ok (x.mul x)) a.inDecimal (some (longest (rootLength a))) = a.root := by
  have hsquare : ∀ x : Decimal, (x.toNumeral.mul x.toNumeral).toDecimal = x.mul x := by
    intro x
    unfold mul
    rw [toDecimal_toNumeral, toDecimal_toNumeral]
  have hsearched : a.toDecimal.cmpMagnitude .one = .gt := by
    have hmagnitude := natAbs_toInt a
    rw [Decimal.cmpMagnitude_eq, Nat.compare_eq_gt, magnitude_toDecimal]
    show 1 < a.magnitude
    omega
  rw [invert_eq_bisect hsquare (by rw [toInt_inDecimal]; omega), root_of_nonneg (by omega),
    Decimal.root, if_pos hsearched, inDecimal, longest, toDecimal_toNumeral, toDecimal_toNumeral]
  rfl

/-- For one the search is left out, and it would find the same. -/
theorem invert_square_one (h : a.toInt = 1) :
    invert (fun x => .ok (x.mul x)) a.inDecimal (some (longest (rootLength a))) = a.root := by
  have htarget : a.inDecimal.toInt = 1 := a.toInt_inDecimal.trans h
  have hfirst : (one.mul one).toInt = 1 := by decide
  have hbound := @le_longest_of_square_le a .one (by decide) (by rw [htarget]; decide)
  have hend : upperEnd a.inDecimal (some (longest (rootLength a))) = 1 := by
    rw [Decimal.toInt_one] at hbound
    rw [upperEnd, htarget]
    exact Int.min_eq_right hbound
  rw [root_one h]
  refine invert_of_first_hit (by omega) ?_ hend (Int.le_refl 1) (by decide) ?_
  · exact Int.le_of_eq (hfirst.trans htarget.symm)
  · exact hfirst.trans htarget.symm

theorem invert_square (ha : 1 ≤ a.toInt) :
    invert (fun x => .ok (x.mul x)) a.inDecimal (some (longest (rootLength a))) = a.root := by
  rcases Int.lt_or_eq_of_le ha with hlarge | hone
  · exact invert_square_of_one_lt hlarge
  · exact invert_square_one hone.symm

/-- Without the bound the search finds the same root. -/
theorem invert_square_free (ha : 1 ≤ a.toInt) :
    invert (fun x => .ok (x.mul x)) a.inDecimal none = a.root := by
  rw [← invert_square ha]
  refine (invert_eq_of_wide neverFalls_square (hitOnce_square _) ?_ (by decide)
    fun x => le_longest_of_square_le).symm
  rw [toInt_inDecimal]
  omega

end

/-! ## The law -/

/-- A quotient is no larger than the largest number of its length, and a root has its
length exactly. So division and roots find in the search under that bound what they
would find in the search without any. -/
theorem lengths_never_cut_an_answer_off :
    (∀ a b : Numeral, b.toInt ≠ 0 →
        a.toInt.natAbs / b.toInt.natAbs ≤ 10 ^ quotientLength a b - 1 ∧
          (longest (quotientLength a b)).toInt = 10 ^ quotientLength a b - 1 ∧
          ∃ q : Numeral, q.toInt = (a.toInt.natAbs / b.toInt.natAbs : Nat) ∧
            a.divide b = .ok (if a.negative != b.negative then q.neg else q) ∧
            invert (fun x => .ok (x.mul b.inDecimal.abs)) a.inDecimal.abs
              (some (longest (quotientLength a b))) = .ok q ∧
            invert (fun x => .ok (x.mul b.inDecimal.abs)) a.inDecimal.abs none = .ok q) ∧
      ∀ a : Numeral, 1 ≤ a.toInt →
        ∃ r, a.root = .ok r ∧ SquareRoot a r ∧ r.length = rootLength a ∧
          (longest (rootLength a)).toInt = 10 ^ rootLength a - 1 ∧
          invert (fun x => .ok (x.mul x)) a.inDecimal (some (longest (rootLength a))) = .ok r ∧
          invert (fun x => .ok (x.mul x)) a.inDecimal none = .ok r := by
  refine ⟨fun a b hb => ⟨?_, toInt_longest _, _, toInt_quotientMagnitude a hb,
    divide_eq_signed hb, invert_mul a b, invert_mul_free hb⟩, fun a ha => ?_⟩
  · have hlt := @div_lt_weight a b hb
    rw [Digits.weight_eq_pow] at hlt
    rw [natAbs_toInt, natAbs_toInt]
    omega
  · have hnonneg : 0 ≤ a.toInt := by omega
    have hroot := root_of_nonneg hnonneg
    have hsquare := squareRoot_of_nonneg hnonneg
    exact ⟨_, hroot, hsquare, hsquare.length_eq ha, toInt_longest _,
      (invert_square ha).trans hroot, (invert_square_free ha).trans hroot⟩

/-- The largest number of three digits by one, where the quotient meets its bound, and by
a number with more digits; the roots on both sides of the least number of five digits. -/
theorem nine_hundred_ninety_nine_and_ten_thousand :
    let a : Numeral := (Decimal.ofTopDigits [9, 9, 9] true).toNumeral
    let b : Numeral := (Decimal.ofTopDigits [1, 0, 0, 0] false).toNumeral
    let c : Numeral := (Decimal.ofTopDigits [9, 9, 9, 9] false).toNumeral
    let d : Numeral := (Decimal.ofTopDigits [1, 0, 0, 0, 0] false).toNumeral
    (quotientLength a one = 3 ∧ ∃ q : Numeral, q.toInt = 999 ∧ a.divide one = .ok q.neg ∧
        invert (fun x => .ok (x.mul one.inDecimal.abs)) a.inDecimal.abs none = .ok q) ∧
      (quotientLength a b = 1 ∧ ∃ q : Numeral, q.toInt = 0 ∧ a.divide b = .ok q.neg) ∧
      (∃ r, c.root = .ok r ∧ r.length = 2 ∧
        invert (fun x => .ok (x.mul x)) c.inDecimal none = .ok r) ∧
      ∃ r, d.root = .ok r ∧ r.length = 3 ∧
        invert (fun x => .ok (x.mul x)) d.inDecimal none = .ok r := by
  intro a b c d
  obtain ⟨hquotient, hroot⟩ := lengths_never_cut_an_answer_off
  obtain ⟨_, _, q, hq, hdivide, _, hfree⟩ := hquotient a one (by decide)
  obtain ⟨_, _, p, hp, hsmall, _, _⟩ := hquotient a b (by decide)
  obtain ⟨r, hr, _, hlength, _, _, hrfree⟩ := hroot c (by decide)
  obtain ⟨s, hs, _, hlonger, _, _, hsfree⟩ := hroot d (by decide)
  exact ⟨⟨by decide, q, hq.trans (by decide), hdivide, hfree⟩,
    ⟨by decide, p, hp.trans (by decide), hsmall⟩,
    ⟨r, hr, hlength.trans (by decide), hrfree⟩, s, hs, hlonger.trans (by decide), hsfree⟩

end Numeral

end Abacus
