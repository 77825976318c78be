-- The laws of the bound on a search. A bound that is not below the largest number
-- that will do never changes the image of the answer, and where at most one number
-- hits the target it does not change the answer either. Where several numbers hit
-- the target, the search stops at whichever it tries first, and that is for the
-- bound to say.
import Abacus.Proofs.Inversion

namespace Abacus.Numeral

open Decimal (Settles middle settles)

/-- `m` is the largest number from one to the target whose image is not above the
target. -/
structure Largest (g : Numeral → Numeral) (target : Numeral) (m : Decimal) : Prop where
  pos : 1 ≤ m.toInt
  le : m.toInt ≤ target.toInt
  image : (g m.toNumeral).toInt ≤ target.toInt
  above : ∀ x : Decimal, m.toInt < x.toInt → x.toInt ≤ target.toInt →
    target.toInt < (g x.toNumeral).toInt

/-- At most one number from one to the target hits the target. -/
def HitOnce (g : Numeral → Numeral) (target : Numeral) : Prop :=
  ∀ x y : Decimal, 1 ≤ x.toInt → x.toInt ≤ y.toInt → y.toInt ≤ target.toInt →
    (g x.toNumeral).toInt = target.toInt → (g y.toNumeral).toInt = target.toInt → x = y

section

variable {g : Numeral → Numeral} {target : Numeral} {high : Option Numeral} {m r : Decimal}

/-! ## The largest number that will do -/

theorem exists_largest (htarget : 1 ≤ target.toInt) (hone : (g one).toInt ≤ target.toInt) :
    ∃ m, Largest g target m := by
  -- Going up from one, each number is the largest so far or the one before it stays so.
  have hupto : ∀ n : Nat, ∃ m : Decimal, 1 ≤ m.toInt ∧ m.toInt ≤ n + 1 ∧
      (g m.toNumeral).toInt ≤ target.toInt ∧ ∀ x : Decimal, m.toInt < x.toInt →
        x.toInt ≤ n + 1 → target.toInt < (g x.toNumeral).toInt := by
    intro n
    induction n with
    | zero =>
      have hfirst := Decimal.toInt_one
      exact ⟨.one, by omega, by omega, hone, fun x hx hxn => by omega⟩
    | succ n ih =>
      obtain ⟨m, hm, hmn, himage, habove⟩ := ih
      have hnext : (Decimal.ofInt (n + 2)).toInt = n + 2 := Decimal.toInt_ofInt _
      by_cases hlow : (g (Decimal.ofInt (n + 2)).toNumeral).toInt ≤ target.toInt
      · exact ⟨.ofInt (n + 2), by omega, by omega, hlow, fun x hx hxn => by omega⟩
      · refine ⟨m, hm, by omega, himage, fun x hx hxn => ?_⟩
        by_cases hlast : x.toInt = n + 2
        · rw [Decimal.eq_of_toInt (hlast.trans hnext.symm)]
          omega
        · exact habove x hx (by omega)
  obtain ⟨m, hm, hmn, himage, habove⟩ := hupto (target.toInt - 1).toNat
  exact ⟨m, hm, by omega, himage, fun x hx hxn => habove x hx (by omega)⟩

/-! ## The answer under a bound -/

/-- Under a bound that is not below the largest number, the search ends on that
number or on a hit below it. -/
theorem Largest.eq_or_hit (hm : Largest g target m) (hg : NeverFalls g)
    (hone : (g one).toInt ≤ target.toInt) (hhigh : m.toInt ≤ upperEnd target high)
    (h : Settles (imageOrder g target) .one (searchEnd target high) .one r) :
    1 ≤ r.toInt ∧ r.toInt ≤ m.toInt ∧ (r = m ∨ (g r.toNumeral).toInt = target.toInt) := by
  have hend : upperEnd target high ≤ target.toInt := by
    cases high with
    | none => exact Int.le_refl _
    | some b => exact Int.min_le_right _ _
  have hpos := hm.pos
  obtain ⟨hr, hle, himage⟩ := bounds_of_settles h hone
  have hrm : r.toInt ≤ m.toInt := by
    apply Int.le_of_not_gt
    intro hlt
    have hlarge := hm.above r hlt (by omega)
    omega
  refine ⟨hr, hrm, ?_⟩
  rcases largest_of_settles h hg with hhit | hall
  · exact .inr hhit
  · refine .inl (Decimal.eq_of_toInt ?_)
    apply Int.le_antisymm hrm
    apply Int.le_of_not_gt
    intro hlt
    have hlarge := hall m hlt hhigh
    have hsmall := hm.image
    omega

/-- All numbers that the search can end on have the image of the largest one. -/
theorem Largest.image_eq (hm : Largest g target m) (hg : NeverFalls g) (hr : 1 ≤ r.toInt)
    (hrm : r.toInt ≤ m.toInt) (h : r = m ∨ (g r.toNumeral).toInt = target.toInt) :
    (g r.toNumeral).toInt = (g m.toNumeral).toInt := by
  rcases h with rfl | hhit
  · rfl
  · have hup := hg r m hr hrm
    have hsmall := hm.image
    omega

/-- Where at most one number hits the target, that is the largest one. -/
theorem Largest.eq_of_hitOnce (hm : Largest g target m) (hg : NeverFalls g)
    (honce : HitOnce g target) (hr : 1 ≤ r.toInt) (hrm : r.toInt ≤ m.toInt)
    (h : r = m ∨ (g r.toNumeral).toInt = target.toInt) : r = m := by
  have himage := hm.image_eq hg hr hrm h
  rcases h with heq | hhit
  · exact heq
  · exact honce r m hr hrm hm.le hhit (himage.symm.trans hhit)

theorem invert_of_settles (htarget : 0 ≤ target.toInt) (hone : (g one).toInt ≤ target.toInt)
    (h : Settles (imageOrder g target) .one (searchEnd target high) .one r) :
    invert (fun x => .ok (g x)) target high = .ok r.toNumeral := by
  rw [invert_of_nonneg htarget, if_neg (by omega), h.settle_eq]

/-- A hit at the first number tried, halfway from one to the upper end, is the
answer. -/
theorem invert_of_first_hit {n : Int} (htarget : 0 ≤ target.toInt)
    (hone : (g one).toInt ≤ target.toInt) (hend : upperEnd target high = n) (hn : 1 ≤ n)
    (hmiddle : r.toInt = (1 + n).tdiv 2) (hhit : (g r.toNumeral).toInt = target.toInt) :
    invert (fun x => .ok (g x)) target high = .ok r.toNumeral := by
  subst hend
  have hr : r = middle .one (searchEnd target high) := by
    apply Decimal.eq_of_toInt
    rw [middle, Decimal.toInt_half, Decimal.toInt_add, Decimal.toInt_one, toInt_searchEnd]
    exact hmiddle
  subst hr
  refine invert_of_settles htarget hone (.hit ?_ ?_)
  · rw [Decimal.cmp_eq, Decimal.toInt_one, toInt_searchEnd, ne_eq, Int.compare_eq_gt]
    omega
  · rw [imageOrder, cmp_eq, Int.compare_eq_eq]
    exact hhit

end

/-! ## The laws -/

/-- For a function that never falls there is a largest number that will do. Under a
bound that is not below it, and without a bound, the answers are not above it and
have its image. Where at most one number hits the target, both are that number; under
a bound from the target on they are the same in any case. -/
theorem a_bound_keeps_the_image (g : Numeral → Numeral) (target : Numeral)
    (hg : NeverFalls g) (htarget : 1 ≤ target.toInt) (hone : (g one).toInt ≤ target.toInt) :
    ∃ m, Largest g target m ∧ ∀ high : Numeral, m.toInt ≤ high.toInt →
      ∃ bounded free : Decimal,
        invert (fun x => .ok (g x)) target (some high) = .ok bounded.toNumeral ∧
        invert (fun x => .ok (g x)) target none = .ok free.toNumeral ∧
        (bounded.toInt ≤ m.toInt ∧ (g bounded.toNumeral).toInt = (g m.toNumeral).toInt) ∧
        (free.toInt ≤ m.toInt ∧ (g free.toNumeral).toInt = (g m.toNumeral).toInt) ∧
        (HitOnce g target → bounded = m ∧ free = m) ∧
        (target.toInt ≤ high.toInt → bounded = free) := by
  obtain ⟨m, hm⟩ := exists_largest htarget hone
  have htarget0 : 0 ≤ target.toInt := by omega
  refine ⟨m, hm, fun high hhigh => ?_⟩
  have hbounded := settles (imageOrder g target) .one (searchEnd target (some high)) .one
  have hfree := settles (imageOrder g target) .one (searchEnd target none) .one
  have hend : m.toInt ≤ upperEnd target (some high) := Int.le_min.2 ⟨hhigh, hm.le⟩
  have hwhole : m.toInt ≤ upperEnd target none := hm.le
  obtain ⟨hb1, hbm, hb⟩ := hm.eq_or_hit hg hone hend hbounded
  obtain ⟨hf1, hfm, hf⟩ := hm.eq_or_hit hg hone hwhole hfree
  refine ⟨_, _, invert_of_settles htarget0 hone hbounded, invert_of_settles htarget0 hone hfree,
    ⟨hbm, hm.image_eq hg hb1 hbm hb⟩, ⟨hfm, hm.image_eq hg hf1 hfm hf⟩, fun honce =>
    ⟨hm.eq_of_hitOnce hg honce hb1 hbm hb, hm.eq_of_hitOnce hg honce hf1 hfm hf⟩, fun hwide => ?_⟩
  have hsame : searchEnd target (some high) = searchEnd target none := by
    apply Decimal.eq_of_toInt
    rw [toInt_searchEnd, toInt_searchEnd]
    exact Int.min_eq_right hwide
  rw [hsame]

theorem hitOnce_square (target : Numeral) : HitOnce (fun x => x.mul x) target := by
  intro x y hx hxy _ hxt hyt
  rw [toInt_mul] at hxt hyt
  rcases Int.lt_or_eq_of_le hxy with hlt | heq
  · have hrise := Int.mul_lt_mul hlt (Int.le_of_lt hlt) (by omega) (by omega)
    omega
  · exact Decimal.eq_of_toInt heq

/-- The root of ten, under the bound four and without one. -/
theorem the_root_of_ten_below_four :
    ∃ m : Decimal, m.toInt = 3 ∧
      invert (fun x => .ok (x.mul x)) (ofInt 10) (some (ofInt 4)) = .ok m.toNumeral ∧
      invert (fun x => .ok (x.mul x)) (ofInt 10) none = .ok m.toNumeral := by
  obtain ⟨m, hm, hall⟩ := a_bound_keeps_the_image (fun x => x.mul x) (ofInt 10) neverFalls_square
    (by rw [toInt_ofInt]; decide) (by rw [toInt_ofInt]; decide)
  have hpos := hm.pos
  have himage := hm.image
  have habove := hm.above (.ofInt 3)
  simp only [toInt_mul, toInt_ofInt, Decimal.toInt_ofInt] at himage habove
  have hlt : m.toInt < 4 := by
    apply Int.lt_of_not_ge
    intro h
    have hlarge := Int.mul_le_mul h h (by omega) (by omega)
    omega
  have hthree : m.toInt = 3 := by omega
  obtain ⟨bounded, free, hbounded, hfree, _, _, honce, _⟩ := hall (ofInt 4) (by
    rw [toInt_ofInt]
    omega)
  obtain ⟨rfl, rfl⟩ := honce (hitOnce_square _)
  exact ⟨_, hthree, hbounded, hfree⟩

/-! ## A level at the target -/

/-- Three up to two, and four from three on. -/
def stepped (x : Numeral) : Numeral := if x.toInt ≤ 2 then ofInt 3 else ofInt 4

theorem toInt_stepped (x : Numeral) : (stepped x).toInt = if x.toInt ≤ 2 then 3 else 4 := by
  unfold stepped
  split <;> exact toInt_ofInt _

/-- A function that hits the target at one and at two, and the bound two, which is
the largest number that will do: without the bound two is the answer, and under it
one is. For a constant function even the answer itself is a bound that changes it. -/
theorem a_bound_moves_the_answer_on_a_level :
    (NeverFalls stepped ∧ (stepped one).toInt ≤ (ofInt 3).toInt ∧
        Largest stepped (ofInt 3) (.ofInt 2) ∧
        invert (fun x => .ok (stepped x)) (ofInt 3) none = .ok (Decimal.ofInt 2).toNumeral ∧
        invert (fun x => .ok (stepped x)) (ofInt 3) (some (ofInt 2)) =
          .ok (Decimal.ofInt 1).toNumeral) ∧
      invert (fun _ => .ok (ofInt 5)) (ofInt 5) none = .ok (Decimal.ofInt 3).toNumeral ∧
      invert (fun _ => .ok (ofInt 5)) (ofInt 5) (some (Decimal.ofInt 3).toNumeral) =
        .ok (Decimal.ofInt 2).toNumeral := by
  have hone : (stepped one).toInt ≤ (ofInt 3).toInt := by
    rw [toInt_stepped, toInt_ofInt]
    decide
  have hthree : 0 ≤ (ofInt 3).toInt := by
    rw [toInt_ofInt]
    decide
  have hfive : 0 ≤ (ofInt 5).toInt := by
    rw [toInt_ofInt]
    decide
  have hunder : upperEnd (ofInt 3) (some (ofInt 2)) = 2 := by
    rw [upperEnd, toInt_ofInt, toInt_ofInt]
    rfl
  have hanswer : upperEnd (ofInt 5) (some (Decimal.ofInt 3).toNumeral) = 3 := by
    rw [upperEnd, toInt_ofInt, Decimal.toInt_ofInt]
    rfl
  refine ⟨⟨?_, hone, ⟨?_, ?_, ?_, ?_⟩, ?_, ?_⟩, ?_, ?_⟩
  · intro x y _ hxy
    rw [toInt_stepped, toInt_stepped]
    split <;> split <;> omega
  · rw [Decimal.toInt_ofInt]
    decide
  · rw [Decimal.toInt_ofInt, toInt_ofInt]
    decide
  · rw [toInt_stepped, Decimal.toInt_ofInt, toInt_ofInt]
    decide
  · intro x hx _
    rw [Decimal.toInt_ofInt] at hx
    rw [toInt_stepped, toInt_ofInt, if_neg (by omega)]
    decide
  -- Each of the four searches hits the target at the first number that it tries.
  · refine invert_of_first_hit hthree hone (toInt_ofInt 3) (by decide) ?_ ?_
    · exact Decimal.toInt_ofInt 2
    · rw [toInt_stepped, toInt_ofInt, Decimal.toInt_ofInt]
      rfl
  · refine invert_of_first_hit hthree hone hunder (by decide) ?_ ?_
    · exact Decimal.toInt_ofInt 1
    · rw [toInt_stepped, toInt_ofInt, Decimal.toInt_ofInt]
      rfl
  · exact invert_of_first_hit hfive (Int.le_refl _) (toInt_ofInt 5) (by decide)
      (Decimal.toInt_ofInt 3) rfl
  · exact invert_of_first_hit hfive (Int.le_refl _) hanswer (by decide)
      (Decimal.toInt_ofInt 2) rfl

end Abacus.Numeral
