-- The laws of halving. The work goes down from the top digit and hands on nothing or
-- one. A half is exact, toward zero, so the number halfway between two others stands
-- between them, and whichever way a search goes from there, it has less left to try.
import Abacus.Proofs.Arithmetic
import Abacus.Proofs.InPlace

open Relation (ReflTransGen)

namespace Abacus

namespace Digits

/-! ## The work, step by step -/

/-- A half on the way: the lowest place that the work has come down to, the digits found
from there up, and what is handed on to the place below. -/
structure Halving where
  place : Nat
  found : List Nat
  rest : Nat

/-- Above the top digit. -/
def Halving.start (ds : List Nat) : Halving := ⟨ds.length, [], 0⟩

/-- With the digits from this place up halved. -/
def Halving.down (base : Nat) (ds : List Nat) (place : Nat) : Halving :=
  ⟨place, (half base (ds.drop place)).1, (half base (ds.drop place)).2⟩

/-- One step of halving: the next lower digit, together with what is handed on to it. -/
inductive Halves (base : Nat) (ds : List Nat) : Halving → Halving → Prop
  | goes {place d rest : Nat} {found : List Nat} : ds[place]? = some d →
      Halves base ds ⟨place + 1, found, rest⟩
        ⟨place, (rest * base + d) / 2 :: found, (rest * base + d) % 2⟩

section

variable {base : Nat} {ds : List Nat}

theorem halves_unique (base : Nat) (ds : List Nat) : Relator.RightUnique (Halves base ds) := by
  rintro w t u ⟨ht⟩ ⟨hu⟩
  cases ht.symm.trans hu
  rfl

theorem start_eq_down (base : Nat) (ds : List Nat) :
    Halving.start ds = .down base ds ds.length := by
  simp [Halving.start, Halving.down, half]

theorem halves_down {place d : Nat} (h : ds[place]? = some d) :
    Halves base ds (.down base ds (place + 1)) (.down base ds place) := by
  unfold Halving.down
  rw [drop_of_getElem? h]
  exact .goes h

/-- Each step has halved the digits that the work has passed. -/
theorem eq_down_of_step {w t : Halving} (h : w = .down base ds w.place)
    (hstep : Halves base ds w t) : t = .down base ds t.place := by
  cases hstep with
  | @goes place d rest found hd =>
    have hgoes : Halves base ds ⟨place + 1, found, rest⟩ _ := .goes hd
    rw [h] at hgoes
    exact halves_unique base ds hgoes (halves_down hd)

theorem eq_down_of_run {w : Halving} (h : ReflTransGen (Halves base ds) (.start ds) w) :
    w = .down base ds w.place := by
  induction h with
  | refl => exact start_eq_down base ds
  | tail _ hstep ih => exact eq_down_of_step ih hstep

/-- The work comes down to every place. -/
theorem run_down {place : Nat} (h : place ≤ ds.length) :
    ReflTransGen (Halves base ds) (.start ds) (.down base ds place) := by
  obtain ⟨passed, hpassed⟩ := Nat.exists_eq_add_of_le h
  induction passed generalizing place with
  | zero => rw [start_eq_down base ds, hpassed, Nat.add_zero]
  | succ n ih =>
    have hplace : place < ds.length := by omega
    exact (ih hplace (by omega)).tail (halves_down (List.getElem?_eq_getElem hplace))

theorem ends_half (base : Nat) (ds : List Nat) :
    Ends (Halves base ds) (.start ds) ⟨0, (half base ds).1, (half base ds).2⟩ := by
  refine ends_of_run (halves_unique base ds) (run_down (Nat.zero_le _)) fun t ht => ?_
  cases ht

/-- Nothing or one is handed on, from every digit to the next. -/
theorem rest_lt_of_run {w : Halving} (h : ReflTransGen (Halves base ds) (.start ds) w) :
    w.rest < 2 := by
  rw [eq_down_of_run h]
  exact half_snd_lt base _

end

end Digits

namespace Numeral

/-! ## Halves -/

theorem makes_half (a : Numeral) :
    Makes (Digits.half 10 a.inDecimal.digits).1 a.negative a.half := by
  rw [← negative_toDecimal a]
  exact makes_ofDigits _ a.toDecimal.negative

theorem exact_half (a : Numeral) : Exact (a.toInt.tdiv 2) a.half :=
  exact_of_toInt (by simp)

/-! ## The interval of a search -/

/-- How many numbers there are from one end to the other, both ends counted. -/
def width (low high : Numeral) : Nat := (high.toInt + 1 - low.toInt).toNat

/-- `mid` is the number that a search tries next. It stands between the ends, and there
are fewer numbers above it, and fewer below it, than between the ends. -/
structure Splits (low high mid : Numeral) : Prop where
  tried : mid = (Decimal.middle low.toDecimal high.toDecimal).toNumeral
  low_le : low.toInt ≤ mid.toInt
  le_high : mid.toInt ≤ high.toInt
  above : width (mid.add one) high < width low high
  below : width low (mid.sub one) < width low high

theorem splits_half {low high : Numeral} (h : low.toInt ≤ high.toInt) :
    Splits low high (low.add high).half := by
  have htried : (low.add high).half =
      (Decimal.middle low.toDecimal high.toDecimal).toNumeral := by
    unfold half add Decimal.middle
    rw [toDecimal_toNumeral]
  have hbetween := @Decimal.middle_bounds low.toDecimal high.toDecimal (by simpa using h)
  rw [toInt_toDecimal, toInt_toDecimal, ← htried] at hbetween
  obtain ⟨hlow, hhigh⟩ := hbetween
  have hone : one.toInt = 1 := Decimal.toInt_one
  refine ⟨htried, hlow, hhigh, ?_, ?_⟩
  · unfold width
    rw [toInt_add (low.add high).half, hone]
    omega
  · unfold width
    rw [toInt_sub, hone]
    omega

/-! ## The law -/

/-- Halving a number in any base comes to an end, and on the way it hands on nothing or
one. The digits that it finds pass the checks of a new numeral. That numeral is exact:
half of the number toward zero, canonical, in base ten, and without a minus where it is
zero. Half of a sum splits the interval between the two numbers. -/
theorem halves_are_exact_and_split_an_interval :
    (∀ a : Numeral, ∃ halves rest, Digits.half 10 a.inDecimal.digits = (halves, rest) ∧
        Ends (Digits.Halves 10 a.inDecimal.digits) (.start a.inDecimal.digits)
          ⟨0, halves, rest⟩ ∧
        (∀ w, ReflTransGen (Digits.Halves 10 a.inDecimal.digits) (.start a.inDecimal.digits) w →
          w.rest = 0 ∨ w.rest = 1) ∧
        Makes halves a.negative a.half ∧ Exact (a.toInt.tdiv 2) a.half ∧
        (a.half.toInt = 0 → a.half.negative = false)) ∧
      ∀ low high : Numeral, low.toInt ≤ high.toInt → Splits low high (low.add high).half := by
  refine ⟨fun a => ⟨_, _, rfl, Digits.ends_half _ _, fun w hw => ?_, makes_half a, exact_half a,
    fun hzero => not_negative_of_magnitude (toInt_eq_zero.1 hzero)⟩, fun _ _ => splits_half⟩
  have hrest := Digits.rest_lt_of_run hw
  omega

/-- Minus one in base two, which has a half without a minus, and the number that a search
tries between one in base seven and ten in base sixteen. -/
theorem half_of_minus_one_and_a_split_at_five :
    let a : Numeral := .ofDigits 2 [1] true (by decide) (by decide)
    let low : Numeral := .ofDigits 7 [1] false (by decide) (by decide)
    let high : Numeral := .ofDigits 16 [10] false (by decide) (by decide)
    (a.half.toInt = 0 ∧ a.half.negative = false) ∧ low.toInt ≤ high.toInt ∧
      Splits low high (low.add high).half ∧ (low.add high).half.toInt = 5 := by
  intro a low high
  obtain ⟨hhalves, hsplits⟩ := halves_are_exact_and_split_an_interval
  obtain ⟨_, _, _, _, _, _, hexact, hsign⟩ := hhalves a
  obtain ⟨_, _, _, _, _, _, hmiddle, _⟩ := hhalves (low.add high)
  have hzero : a.half.toInt = 0 := hexact.number.trans (by decide)
  have hle : low.toInt ≤ high.toInt := by decide
  refine ⟨⟨hzero, hsign hzero⟩, hle, hsplits low high hle, ?_⟩
  rw [hmiddle.number, toInt_add]
  decide

end Numeral

end Abacus
