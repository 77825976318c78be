-- The laws of inverting a function. The search ends for every function that
-- raises nothing, and its answer stays between one and the bound, with an image
-- that is not above the target. Where the function never falls, the image hits
-- the target or no larger number within the bound would do.
import Abacus.Numeral.Operations

namespace Abacus.Numeral

open Decimal (Settles settle settles)

/-- How the image of a number stands to the target. -/
def imageOrder (g : Numeral → Numeral) (target : Numeral) (x : Decimal) : Ordering :=
  (g x.toNumeral).cmp target

/-- The number that the search goes up to, for a bound if there is one. -/
def upperEnd (target : Numeral) : Option Numeral → Int
  | none => target.toInt
  | some high => min high.toInt target.toInt

/-- The upper end, as the search finds it. -/
def searchEnd (target : Numeral) (high : Option Numeral) : Decimal :=
  (high.getD target).toDecimal.atMost target.toDecimal

/-- From one on, a larger number never has a smaller image. -/
def NeverFalls (g : Numeral → Numeral) : Prop :=
  ∀ x y : Decimal, 1 ≤ x.toInt → x.toInt ≤ y.toInt →
    (g x.toNumeral).toInt ≤ (g y.toNumeral).toInt

/-- The square of a larger number is larger. -/
theorem neverFalls_square : NeverFalls fun x => x.mul x := by
  intro x y hx hxy
  rw [toInt_mul, toInt_mul]
  exact Int.mul_le_mul hxy hxy (by omega) (by omega)

section

variable {g : Numeral → Numeral} {target : Numeral} {high : Option Numeral}

/-! ## The search of a function -/

theorem toInt_searchEnd : (searchEnd target high).toInt = upperEnd target high := by
  rw [searchEnd, Decimal.toInt_atMost, toInt_toDecimal, toInt_toDecimal]
  cases high with
  | none => exact Int.min_self _
  | some high => rfl

/-- For a function that raises nothing the search does not either. -/
theorem invert_of_nonneg (h : 0 ≤ target.toInt) :
    invert (fun x => .ok (g x)) target high =
      .ok (if target.toInt < (g one).toInt then zero
        else (settle (imageOrder g target) .one (searchEnd target high) .one).toNumeral) := by
  have hone : (g one).toDecimal.cmp target.toDecimal = .gt ↔ target.toInt < (g one).toInt := by
    rw [Decimal.cmp_eq, toInt_toDecimal, toInt_toDecimal, Int.compare_eq_gt]
  unfold invert
  rw [requireNonnegative_of_nonneg _ h]
  show (Decimal.bisect (fun x => (pure (g x.toNumeral).toDecimal : Except Error Decimal)) _ _ >>=
    fun found => pure found.toNumeral) = _
  rw [Decimal.bisect_pure]
  split
  · rename_i habove
    rw [if_pos (hone.1 habove)]
    rfl
  · rename_i habove
    rw [if_neg fun h => habove (hone.2 h)]
    rfl

/-! ## The function on integers -/

/-- The image of an integer, which is handed in as its decimal. -/
def onInt (g : Numeral → Numeral) (n : Int) : Int := (g (Decimal.ofInt n).toNumeral).toInt

theorem onInt_toInt (x : Decimal) : onInt g x.toInt = (g x.toNumeral).toInt := by
  have hx : Decimal.ofInt x.toInt = x := Decimal.eq_of_toInt (Decimal.toInt_ofInt _)
  rw [onInt, hx]

theorem imageOrder_eq : imageOrder g target = Decimal.orderOf (onInt g) target.toInt := by
  funext x
  rw [imageOrder, Decimal.orderOf, cmp_eq, onInt_toInt]

theorem onInt_mono (h : NeverFalls g) {m n : Int} (hm : 1 ≤ m) (hmn : m ≤ n) :
    onInt g m ≤ onInt g n := by
  apply h
  · rwa [Decimal.toInt_ofInt]
  · rwa [Decimal.toInt_ofInt, Decimal.toInt_ofInt]

/-! ## What the search settles on -/

variable {r : Decimal}

theorem bounds_of_settles
    (h : Settles (imageOrder g target) .one (searchEnd target high) .one r)
    (hone : (g one).toInt ≤ target.toInt) :
    1 ≤ r.toInt ∧ r.toInt ≤ max 1 (upperEnd target high) ∧
      (g r.toNumeral).toInt ≤ target.toInt := by
  rw [imageOrder_eq] at h
  obtain ⟨himage, hr⟩ := h.le (by rw [onInt_toInt]; exact hone)
  rw [onInt_toInt] at himage
  rw [toInt_searchEnd, Decimal.toInt_one] at hr
  rcases hr with rfl | ⟨hlow, hhigh⟩
  · rw [Decimal.toInt_one] at *
    exact ⟨by omega, by omega, himage⟩
  · exact ⟨hlow, by omega, himage⟩

theorem largest_of_settles
    (h : Settles (imageOrder g target) .one (searchEnd target high) .one r)
    (hg : NeverFalls g) :
    (g r.toNumeral).toInt = target.toInt ∨
      ∀ x : Decimal, r.toInt < x.toInt → x.toInt ≤ upperEnd target high →
        target.toInt < (g x.toNumeral).toInt := by
  rw [imageOrder_eq] at h
  have hmono : ∀ m n, Decimal.one.toInt ≤ m → m ≤ n → onInt g m ≤ onInt g n := by
    intro m n hm hmn
    rw [Decimal.toInt_one] at hm
    exact onInt_mono hg hm hmn
  have hlargest := h.greatest hmono (by omega)
  rw [onInt_toInt, toInt_searchEnd] at hlargest
  refine hlargest.imp id fun hr x hx hxhigh => ?_
  rw [← onInt_toInt]
  exact hr x.toInt hx hxhigh

end

/-! ## The laws -/

/-- A target below zero is refused, whatever the function is. For every other
target the search of a function that raises nothing ends, in any case. Its
answer is zero exactly when the image of one is above the target. Else it stands
between one and the upper end, and its image is not above the target. If the
function never falls, the image of the answer is the target, or every number
between the answer and the upper end has an image above the target. -/
theorem the_search_ends_on_an_answer (g : Numeral → Numeral) (target : Numeral)
    (high : Option Numeral) :
    (target.toInt < 0 → ∀ f, ∃ e, invert f target high = .error e ∧ e.kind = .operand) ∧
      (0 ≤ target.toInt →
        ∃ r : Decimal, invert (fun x => .ok (g x)) target high = .ok r.toNumeral ∧
          (r.toNumeral = zero ↔ target.toInt < (g one).toInt) ∧
          ((g one).toInt ≤ target.toInt →
            Settles (imageOrder g target) .one (searchEnd target high) .one r ∧
              1 ≤ r.toInt ∧ r.toInt ≤ max 1 (upperEnd target high) ∧
              (g r.toNumeral).toInt ≤ target.toInt) ∧
          (NeverFalls g →
            (g r.toNumeral).toInt = target.toInt ∨
              ∀ x : Decimal, r.toInt < x.toInt → x.toInt ≤ upperEnd target high →
                target.toInt < (g x.toNumeral).toInt)) := by
  refine ⟨?_, ?_⟩
  · intro htarget f
    exact ⟨_, invert_of_neg htarget f high, rfl⟩
  · intro htarget
    rw [invert_of_nonneg htarget]
    by_cases hone : target.toInt < (g one).toInt
    · refine ⟨.zero, ?_, iff_of_true rfl hone, fun h => by omega, fun hg => .inr ?_⟩
      · rw [if_pos hone]
        rfl
      · intro x hx _
        rw [Decimal.toInt_zero] at hx
        have hfirst : (g one).toInt ≤ (g x.toNumeral).toInt := by
          apply hg .one x
          · exact Int.le_of_eq Decimal.toInt_one.symm
          · rw [Decimal.toInt_one]
            omega
        omega
    · have hsettles := settles (imageOrder g target) .one (searchEnd target high) .one
      have hbounds := bounds_of_settles hsettles (by omega)
      refine ⟨_, by rw [if_neg hone], ⟨?_, fun h => absurd h hone⟩, fun _ => ⟨hsettles, hbounds⟩,
        largest_of_settles hsettles⟩
      intro hzero
      have hvalue := congrArg toInt hzero
      rw [show zero.toInt = 0 from Decimal.toInt_zero] at hvalue
      omega

/-- The root of ten, a function with one value everywhere and a bound below
zero, and a target below zero. -/
theorem three_squared_and_an_empty_interval :
    (∃ r : Decimal, invert (fun x => .ok (x.mul x)) (ofInt 10) none = .ok r.toNumeral ∧
        r.toInt = 3) ∧
      (∃ r : Decimal, invert (fun _ => .ok (ofInt 5)) (ofInt 7) (some (ofInt (-3))) =
        .ok r.toNumeral ∧ r.toInt = 1) ∧
      ∃ e, invert (fun x => .ok x) (ofInt (-2)) none = .error e ∧ e.kind = .operand := by
  have hsquare := (the_search_ends_on_an_answer (fun x => x.mul x) (ofInt 10) none).2
    (by rw [toInt_ofInt]; decide)
  have hfive := (the_search_ends_on_an_answer (fun _ => ofInt 5) (ofInt 7) (some (ofInt (-3)))).2
    (by rw [toInt_ofInt]; decide)
  have hnegative := (the_search_ends_on_an_answer id (ofInt (-2)) none).1
    (by rw [toInt_ofInt]; decide)
  obtain ⟨r, hr, _, hfound, hlargest⟩ := hsquare
  obtain ⟨s, hs, _, hbounds, _⟩ := hfive
  refine ⟨⟨r, hr, ?_⟩, ⟨s, hs, ?_⟩, hnegative _⟩
  · obtain ⟨_, hlow, _, himage⟩ := hfound (by
      rw [toInt_ofInt]
      decide)
    have hthree := hlargest neverFalls_square
    simp only [toInt_mul, toInt_ofInt, upperEnd] at himage hthree
    have hle : r.toInt < 4 := by
      apply Int.lt_of_not_ge
      intro h
      have := Int.mul_le_mul h h (by omega) (by omega)
      omega
    have hcases : r.toInt = 1 ∨ r.toInt = 2 ∨ r.toInt = 3 := by omega
    rcases hcases with h | h | h
    · rw [h] at hthree
      exact absurd (hthree.resolve_left (by decide) (.ofInt 3)) (by simp)
    · rw [h] at hthree
      exact absurd (hthree.resolve_left (by decide) (.ofInt 3)) (by simp)
    · exact h
  · obtain ⟨_, hlow, hhigh, _⟩ := hbounds (by rw [toInt_ofInt, toInt_ofInt]; decide)
    simp only [upperEnd, toInt_ofInt] at hhigh
    omega

end Abacus.Numeral
