-- Limbs: several digits of one base taken together as one digit of a power
-- of that base. `group` packs digits into limbs and `split` takes limbs
-- apart; neither changes the number.
import Abacus.Digits.Basic

namespace Abacus.Digits

/-- Packs digits into limbs of `width` digits, the top limb maybe shorter. -/
def group (base width : Nat) : List Nat → List Nat
  | [] => []
  | d :: ds => value base (d :: ds.take (width - 1)) :: group base width (ds.drop (width - 1))
termination_by ds => ds.length
decreasing_by
  simp only [List.length_drop, List.length_cons]
  omega

/-- The lowest `width` digits of a number, zeros at the top included. -/
def spread (base : Nat) : Nat → Nat → List Nat
  | 0, _ => []
  | width + 1, n => n % base :: spread base width (n / base)

/-- Takes limbs of `width` digits apart. -/
def split (base width : Nat) (limbs : List Nat) : List Nat :=
  limbs.flatMap (spread base width)

/-- How many times ten goes into the number, if nothing else does. -/
def tenPower? (n : Nat) : Option Nat :=
  if n = 1 then some 0
  else if _h : 0 < n ∧ n % 10 = 0 then (tenPower? (n / 10)).map (· + 1)
  else none
termination_by n
decreasing_by exact Nat.div_lt_self _h.1 (by decide)

/-! ## Packing -/

theorem value_group {base width : Nat} (hw : 0 < width) (ds : List Nat) :
    value (weight base width) (group base width ds) = value base ds := by
  fun_induction group base width ds with
  | case1 => rfl
  | case2 d ds ih =>
    have hs := value_append base (ds.take (width - 1)) (ds.drop (width - 1))
    rw [List.take_append_drop] at hs
    rw [value_cons, ih, value_cons, value_cons, hs]
    by_cases hl : width - 1 ≤ ds.length
    · obtain ⟨w, rfl⟩ : ∃ w, width = w + 1 := ⟨width - 1, by omega⟩
      simp only [Nat.add_sub_cancel] at hl
      simp only [Nat.add_sub_cancel, List.length_take, Nat.min_eq_left hl, weight_succ]
      grind
    · rw [List.drop_eq_nil_of_le (by omega)]
      simp

theorem fits_group {base width : Nat} (hb : 0 < base) (hw : 0 < width) {ds : List Nat}
    (h : Fits base ds) : Fits (weight base width) (group base width ds) := by
  fun_induction group base width ds with
  | case1 => exact fits_nil _
  | case2 d ds ih =>
    obtain ⟨hd, hds⟩ := fits_cons.1 h
    refine fits_cons.2 ⟨?_, ih fun x hx => hds x (List.mem_of_mem_drop hx)⟩
    have h1 : Fits base (d :: ds.take (width - 1)) :=
      fits_cons.2 ⟨hd, fun x hx => hds x (List.mem_of_mem_take hx)⟩
    refine Nat.lt_of_lt_of_le h1.value_lt (weight_le hb ?_)
    simp only [List.length_cons, List.length_take]
    omega

/-! ## Taking apart -/

theorem length_spread (base width n : Nat) : (spread base width n).length = width := by
  induction width generalizing n with
  | zero => rfl
  | succ w ih => simp [spread, ih]

theorem value_spread {base width n : Nat} (h : n < weight base width) :
    value base (spread base width n) = n := by
  induction width generalizing n with
  | zero => simp at h; simp [spread, h]
  | succ w ih =>
    have hb : 0 < base := by
      apply Nat.pos_of_ne_zero
      rintro rfl
      simp [weight_succ] at h
    rw [spread, value_cons, ih (Nat.div_lt_of_lt_mul (by rwa [weight_succ] at h))]
    exact Nat.mod_add_div n base

theorem fits_spread {base : Nat} (hb : 0 < base) (width n : Nat) :
    Fits base (spread base width n) := by
  induction width generalizing n with
  | zero => exact fits_nil base
  | succ w ih => exact fits_cons.2 ⟨Nat.mod_lt _ hb, ih _⟩

theorem value_split {base width : Nat} {limbs : List Nat} (h : Fits (weight base width) limbs) :
    value base (split base width limbs) = value (weight base width) limbs := by
  induction limbs with
  | nil => rfl
  | cons l ls ih =>
    obtain ⟨hl, hls⟩ := fits_cons.1 h
    rw [split, List.flatMap_cons, value_append, length_spread, value_spread hl, value_cons,
      ← ih hls]
    rfl

theorem fits_split {base : Nat} (hb : 0 < base) (width : Nat) (limbs : List Nat) :
    Fits base (split base width limbs) := by
  intro d hd
  obtain ⟨l, _, hl⟩ := List.mem_flatMap.1 hd
  exact fits_spread hb width l d hl

/-! ## Powers of ten -/

theorem tenPower?_eq_some {n k : Nat} (h : tenPower? n = some k) : n = weight 10 k := by
  induction n using Nat.strongRecOn generalizing k with
  | _ n ih =>
    rw [tenPower?] at h
    split at h
    · rename_i h1
      cases h
      exact h1
    · split at h
      · rename_i h1
        obtain ⟨j, hj, rfl⟩ := Option.map_eq_some_iff.1 h
        have := ih _ (Nat.div_lt_self h1.1 (by decide)) hj
        rw [weight_succ, ← this]
        omega
      · cases h

theorem tenPower?_weight (k : Nat) : tenPower? (weight 10 k) = some k := by
  induction k with
  | zero => rw [tenPower?]; rfl
  | succ k ih =>
    have hp : 0 < weight 10 k := weight_pos (by decide) k
    rw [weight_succ, tenPower?, if_neg (by omega), dif_pos (by omega),
      Nat.mul_div_cancel_left _ (by decide), ih]
    rfl

end Abacus.Digits
