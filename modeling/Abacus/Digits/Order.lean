-- Which of two digit lists stands for the larger number. Of two trimmed
-- lists the longer one does; of two of one length the top digit that differs
-- decides.
import Abacus.Digits.Basic

namespace Abacus.Digits

/-- Compares lists of one length, the top digit first. -/
def cmpAligned : List Nat → List Nat → Ordering
  | a :: as, b :: bs => (cmpAligned as bs).then (compare a b)
  | _, _ => .eq

/-- Compares two trimmed lists as the numbers they stand for. -/
def cmp (as bs : List Nat) : Ordering :=
  (compare as.length bs.length).then (cmpAligned as bs)

/-! ## The number decides -/

/-- A number other than zero reaches the weight of its top digit. -/
theorem Trimmed.weight_le_value {base : Nat} {ds : List Nat} (h : Trimmed ds) (h0 : ds ≠ [0]) :
    weight base (ds.length - 1) ≤ value base ds := by
  have key : ∀ ds : List Nat, ds ≠ [] → ds.getLast? ≠ some 0 →
      weight base (ds.length - 1) ≤ value base ds := by
    intro ds
    induction ds with
    | nil => intro h; exact absurd rfl h
    | cons d ds ih =>
      intro _ hl
      cases ds with
      | nil =>
        have : d ≠ 0 := by simpa using hl
        simp
        omega
      | cons e es =>
        have := ih (by simp) (by rwa [List.getLast?_cons_cons] at hl)
        simp only [List.length_cons, Nat.add_sub_cancel] at this ⊢
        have h2 := Nat.mul_le_mul_left base this
        rw [value_cons, weight_succ]
        omega
  exact key ds h.1 fun hl => h0 (h.2 hl)

theorem value_lt_of_length_lt {base : Nat} {as bs : List Nat} (hb : 2 ≤ base)
    (ha : Fits base as) (ht : Trimmed as) (hbt : Trimmed bs) (h : as.length < bs.length) :
    value base as < value base bs := by
  have hne : bs ≠ [0] := by
    rintro rfl
    exact ht.1 (by simpa using h)
  have h1 : weight base (bs.length - 1) ≤ value base bs := hbt.weight_le_value hne
  have h2 : weight base as.length ≤ weight base (bs.length - 1) :=
    weight_le (by omega) (by omega)
  have h3 := ha.value_lt
  omega

theorem cmpAligned_eq {base : Nat} {as bs : List Nat} (ha : Fits base as) (hb : Fits base bs)
    (h : as.length = bs.length) : cmpAligned as bs = compare (value base as) (value base bs) := by
  induction as generalizing bs with
  | nil =>
    cases bs with
    | nil => simp [cmpAligned]
    | cons b bs => simp at h
  | cons a as ih =>
    cases bs with
    | nil => simp at h
    | cons b bs =>
      obtain ⟨ha1, ha2⟩ := fits_cons.1 ha
      obtain ⟨hb1, hb2⟩ := fits_cons.1 hb
      rw [cmpAligned, ih ha2 hb2 (by simpa using h), value_cons, value_cons]
      rcases Nat.lt_trichotomy (value base as) (value base bs) with hv | hv | hv
      · have := Nat.mul_le_mul_left base (Nat.succ_le_of_lt hv)
        rw [Nat.mul_succ] at this
        have hlt : a + base * value base as < b + base * value base bs := by omega
        rw [Nat.compare_eq_lt.2 hv, Nat.compare_eq_lt.2 hlt]
        rfl
      · rw [hv, Nat.compare_eq_eq.2 rfl, Ordering.eq_then]
        rcases Nat.lt_trichotomy a b with h | h | h
        · rw [Nat.compare_eq_lt.2 h, Nat.compare_eq_lt.2 (by omega)]
        · rw [Nat.compare_eq_eq.2 h, Nat.compare_eq_eq.2 (by omega)]
        · rw [Nat.compare_eq_gt.2 h, Nat.compare_eq_gt.2 (by omega)]
      · have := Nat.mul_le_mul_left base (Nat.succ_le_of_lt hv)
        rw [Nat.mul_succ] at this
        have hgt : b + base * value base bs < a + base * value base as := by omega
        rw [Nat.compare_eq_gt.2 hv, Nat.compare_eq_gt.2 hgt]
        rfl

theorem cmp_eq {base : Nat} {as bs : List Nat} (h2 : 2 ≤ base) (ha : Fits base as)
    (hb : Fits base bs) (hat : Trimmed as) (hbt : Trimmed bs) :
    cmp as bs = compare (value base as) (value base bs) := by
  rcases Nat.lt_trichotomy as.length bs.length with h | h | h
  · rw [cmp, Nat.compare_eq_lt.2 h,
      Nat.compare_eq_lt.2 (value_lt_of_length_lt h2 ha hat hbt h)]
    rfl
  · rw [cmp, Nat.compare_eq_eq.2 h, Ordering.eq_then, cmpAligned_eq ha hb h]
  · rw [cmp, Nat.compare_eq_gt.2 h,
      Nat.compare_eq_gt.2 (value_lt_of_length_lt h2 hb hbt hat h)]
    rfl

end Abacus.Digits
