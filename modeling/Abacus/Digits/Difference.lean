-- The difference of two digit lists, by borrowing. A digit that is too small
-- takes a loan from the next digit that is not zero, and the zeros on the way
-- become top digits. The work runs out of digits only when the second number
-- is the larger one.
import Abacus.Digits.Basic

namespace Abacus.Digits

/-- Takes one from the digits, or nothing when all of them are zero. -/
def borrow? (base : Nat) : List Nat → Option (List Nat)
  | [] => none
  | 0 :: ds => (borrow? base ds).map ((base - 1) :: ·)
  | (d + 1) :: ds => some (d :: ds)

/-- A loan leaves as many digits as it found. -/
theorem length_borrow? {base : Nat} {ds es : List Nat} (h : borrow? base ds = some es) :
    es.length = ds.length := by
  induction ds generalizing es with
  | nil => simp [borrow?] at h
  | cons d ds ih =>
    cases d with
    | zero =>
      obtain ⟨fs, hf, rfl⟩ := Option.map_eq_some_iff.1 h
      simp [ih hf]
    | succ d =>
      cases h
      rfl

/-- Subtracts from the low end up, digit by digit of the first list. -/
def sub? (base : Nat) : List Nat → List Nat → Option (List Nat)
  | [], _ => some []
  | a :: as, bs =>
    let b := bs.headD 0
    if a < b then
      match _h : borrow? base as with
      | none => none
      | some lent => (sub? base lent bs.tail).map ((a + base - b) :: ·)
    else (sub? base as bs.tail).map ((a - b) :: ·)
termination_by as => as.length
decreasing_by
  · simp only [List.length_cons, length_borrow? _h]
    omega
  · simp

/-! ## What a loan is worth -/

theorem value_borrow? {base : Nat} {ds es : List Nat} (hb : 0 < base)
    (h : borrow? base ds = some es) : value base es + 1 = value base ds := by
  induction ds generalizing es with
  | nil => simp [borrow?] at h
  | cons d ds ih =>
    cases d with
    | zero =>
      obtain ⟨fs, hf, rfl⟩ := Option.map_eq_some_iff.1 h
      have := ih hf
      simp only [value_cons, ← this, Nat.mul_add]
      omega
    | succ d =>
      cases h
      simp only [value_cons]
      omega

theorem fits_borrow? {base : Nat} {ds es : List Nat} (hb : 0 < base) (hf : Fits base ds)
    (h : borrow? base ds = some es) : Fits base es := by
  induction ds generalizing es with
  | nil => simp [borrow?] at h
  | cons d ds ih =>
    obtain ⟨hd, hds⟩ := fits_cons.1 hf
    cases d with
    | zero =>
      obtain ⟨fs, hg, rfl⟩ := Option.map_eq_some_iff.1 h
      exact fits_cons.2 ⟨by omega, ih hds hg⟩
    | succ d =>
      cases h
      exact fits_cons.2 ⟨by omega, hds⟩

/-- A number above zero can always lend. -/
theorem borrow?_isSome {base : Nat} {ds : List Nat} (h : 0 < value base ds) :
    ∃ es, borrow? base ds = some es := by
  induction ds with
  | nil => simp at h
  | cons d ds ih =>
    cases d with
    | zero =>
      have hv : 0 < value base ds := by
        apply Nat.pos_of_ne_zero
        intro h0
        simp [h0] at h
      obtain ⟨es, he⟩ := ih hv
      exact ⟨(base - 1) :: es, by simp [borrow?, he]⟩
    | succ d => exact ⟨d :: ds, rfl⟩

/-! ## The difference -/

/-- A digit of the base never makes up for a larger number above it. -/
theorem le_above {base a b m n : Nat} (ha : a < base) (h : b + base * n ≤ a + base * m) :
    n ≤ m := by
  apply Nat.le_of_lt_succ
  apply Nat.lt_of_mul_lt_mul_left (a := base)
  rw [Nat.mul_succ]
  omega

/-- A digit that is too small leaves something above it to borrow from. -/
theorem lt_above {base a b m n : Nat} (hab : a < b) (h : b + base * n ≤ a + base * m) :
    n < m := by
  apply Nat.lt_of_mul_lt_mul_left (a := base)
  omega

theorem value_headD_tail (base : Nat) (ds : List Nat) :
    value base ds = ds.headD 0 + base * value base ds.tail := by
  cases ds <;> simp

theorem Fits.tail {base : Nat} {ds : List Nat} (h : Fits base ds) : Fits base ds.tail :=
  fun d hd => h d (List.mem_of_mem_tail hd)

theorem Fits.headD_lt {base : Nat} {ds : List Nat} (hb : 0 < base) (h : Fits base ds) :
    ds.headD 0 < base := by
  cases ds with
  | nil => simpa using hb
  | cons d ds => exact (fits_cons.1 h).1

theorem sub?_of_lt {base a : Nat} {as bs lent : List Nat} (h : a < bs.headD 0)
    (hl : borrow? base as = some lent) :
    sub? base (a :: as) bs =
      (sub? base lent bs.tail).map ((a + base - bs.headD 0) :: ·) := by
  rw [sub?]
  simp only [h, ↓reduceIte]
  split
  · simp_all
  · rename_i l hl'
    rw [hl] at hl'
    cases hl'
    rfl

theorem sub?_of_ge {base a : Nat} {as bs : List Nat} (h : ¬ a < bs.headD 0) :
    sub? base (a :: as) bs = (sub? base as bs.tail).map ((a - bs.headD 0) :: ·) := by
  rw [sub?]
  simp only [h, ↓reduceIte]

/-- From a number at least as large, subtraction never runs out of digits. It
keeps the number of digits, and each of them fits the base. -/
theorem sub?_eq_some {base : Nat} {as bs : List Nat} (hb : 2 ≤ base) (ha : Fits base as)
    (hbs : Fits base bs) (h : value base bs ≤ value base as) :
    ∃ ds, sub? base as bs = some ds ∧ ds.length = as.length ∧ Fits base ds ∧
      value base ds + value base bs = value base as := by
  obtain ⟨n, hn⟩ : ∃ n, as.length = n := ⟨_, rfl⟩
  induction n generalizing as bs with
  | zero =>
    obtain rfl := List.eq_nil_of_length_eq_zero hn
    rw [value_nil] at h
    exact ⟨[], by rw [sub?], rfl, fits_nil base, by simp; omega⟩
  | succ n ih =>
    cases as with
    | nil => simp at hn
    | cons a as =>
      obtain ⟨ha1, ha2⟩ := fits_cons.1 ha
      have hb1 := hbs.headD_lt (by omega : 0 < base)
      have hv := value_headD_tail base bs
      rw [value_cons, hv] at h
      by_cases hlt : a < bs.headD 0
      · have habove := lt_above hlt h
        obtain ⟨lent, hl⟩ := borrow?_isSome (Nat.lt_of_le_of_lt (Nat.zero_le _) habove)
        have hlv := value_borrow? (by omega : 0 < base) hl
        have hle : value base bs.tail ≤ value base lent := by omega
        obtain ⟨ds, h1, h2, h3, h4⟩ := ih (fits_borrow? (by omega) ha2 hl) hbs.tail hle
          (by rw [length_borrow? hl]; simpa using hn)
        refine ⟨(a + base - bs.headD 0) :: ds, by rw [sub?_of_lt hlt hl, h1]; rfl,
          by simp [h2, length_borrow? hl], fits_cons.2 ⟨by omega, h3⟩, ?_⟩
        rw [hv, value_cons, value_cons, ← hlv, ← h4]
        simp only [Nat.mul_add]
        omega
      · have hle := le_above ha1 h
        obtain ⟨ds, h1, h2, h3, h4⟩ := ih ha2 hbs.tail hle (by simpa using hn)
        refine ⟨(a - bs.headD 0) :: ds, by rw [sub?_of_ge hlt, h1]; rfl, by simp [h2],
          fits_cons.2 ⟨by omega, h3⟩, ?_⟩
        rw [hv, value_cons, value_cons, ← h4]
        simp only [Nat.mul_add]
        omega

end Abacus.Digits
