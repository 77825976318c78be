-- Whole numbers as lists of digits in a base, the lowest digit first.
-- `value` reads such a list; every law on digits is a law of `value`. A list
-- is `Trimmed` when its top digit counts, and then the number it stands for
-- is written in no other way.

namespace Abacus.Digits

/-! ## Reading and writing a number -/

/-- The number that the digits stand for. -/
def value (base : Nat) : List Nat → Nat
  | [] => 0
  | d :: ds => d + base * value base ds

/-- What a digit at this place counts for. -/
def weight (base : Nat) : Nat → Nat
  | 0 => 1
  | place + 1 => base * weight base place

/-- Every digit is below the base. -/
def Fits (base : Nat) (ds : List Nat) : Prop := ∀ d ∈ ds, d < base

instance (base : Nat) (ds : List Nat) : Decidable (Fits base ds) :=
  inferInstanceAs (Decidable (∀ d ∈ ds, d < base))

/-- The digits of a number, none for zero. -/
def ofNat (base n : Nat) : List Nat :=
  if _h : 2 ≤ base ∧ n ≠ 0 then n % base :: ofNat base (n / base) else []
termination_by n
decreasing_by exact Nat.div_lt_self (Nat.pos_of_ne_zero _h.2) _h.1

@[simp] theorem value_nil (base : Nat) : value base [] = 0 := rfl

@[simp] theorem value_cons (base d : Nat) (ds : List Nat) :
    value base (d :: ds) = d + base * value base ds := rfl

@[simp] theorem weight_zero (base : Nat) : weight base 0 = 1 := rfl

theorem weight_succ (base place : Nat) : weight base (place + 1) = base * weight base place := rfl

theorem weight_add (base m n : Nat) : weight base (m + n) = weight base m * weight base n := by
  induction m with
  | zero => simp
  | succ m ih => rw [Nat.succ_add, weight_succ, weight_succ, ih, Nat.mul_assoc]

theorem weight_pos {base : Nat} (hb : 0 < base) (place : Nat) : 0 < weight base place := by
  induction place with
  | zero => exact Nat.one_pos
  | succ n ih => exact Nat.mul_pos hb ih

theorem weight_le {base m n : Nat} (hb : 0 < base) (h : m ≤ n) : weight base m ≤ weight base n := by
  obtain ⟨k, rfl⟩ := Nat.exists_eq_add_of_le h
  rw [weight_add]
  exact Nat.le_mul_of_pos_right _ (weight_pos hb k)

theorem value_append (base : Nat) (as bs : List Nat) :
    value base (as ++ bs) = value base as + weight base as.length * value base bs := by
  induction as with
  | nil => simp
  | cons a as ih =>
    simp only [List.cons_append, value_cons, ih, List.length_cons, weight_succ]
    grind

@[simp] theorem value_replicate_zero (base n : Nat) :
    value base (List.replicate n 0) = 0 := by
  induction n with
  | zero => rfl
  | succ n ih => simp [List.replicate_succ, ih]

theorem fits_nil (base : Nat) : Fits base [] := fun _ h => nomatch h

theorem fits_cons {base d : Nat} {ds : List Nat} :
    Fits base (d :: ds) ↔ d < base ∧ Fits base ds := by
  simp [Fits]

theorem fits_append {base : Nat} {as bs : List Nat} :
    Fits base (as ++ bs) ↔ Fits base as ∧ Fits base bs := by
  simp only [Fits, List.mem_append]
  exact ⟨fun h => ⟨fun d hd => h d (.inl hd), fun d hd => h d (.inr hd)⟩,
    fun h d hd => hd.elim (h.1 d) (h.2 d)⟩

theorem Fits.replicate_zero {base : Nat} (h : 0 < base) (n : Nat) :
    Fits base (List.replicate n 0) := by
  intro d hd
  rw [List.eq_of_mem_replicate hd]
  exact h

theorem fits_val {base : Nat} (ds : List (Fin base)) : Fits base (ds.map Fin.val) := by
  intro d hd
  obtain ⟨x, _, rfl⟩ := List.mem_map.1 hd
  exact x.isLt

/-- Digits stay below the weight of the next place. -/
theorem Fits.value_lt {base : Nat} {ds : List Nat} (h : Fits base ds) :
    value base ds < weight base ds.length := by
  induction ds with
  | nil => simp
  | cons d ds ih =>
    obtain ⟨hd, hds⟩ := fits_cons.1 h
    have h1 := Nat.mul_le_mul_left base (Nat.succ_le_of_lt (ih hds))
    rw [Nat.mul_succ] at h1
    simp only [value_cons, List.length_cons, weight_succ]
    omega

theorem ofNat_of_pos {base n : Nat} (hb : 2 ≤ base) (hn : n ≠ 0) :
    ofNat base n = n % base :: ofNat base (n / base) := by
  rw [ofNat, dif_pos ⟨hb, hn⟩]

@[simp] theorem ofNat_zero (base : Nat) : ofNat base 0 = [] := by
  rw [ofNat, dif_neg (by simp)]

theorem value_ofNat {base : Nat} (hb : 2 ≤ base) (n : Nat) : value base (ofNat base n) = n := by
  induction n using Nat.strongRecOn with
  | _ n ih =>
    by_cases hn : n = 0
    · simp [hn]
    · rw [ofNat_of_pos hb hn, value_cons, ih _ (Nat.div_lt_self (Nat.pos_of_ne_zero hn) hb)]
      exact Nat.mod_add_div n base

theorem fits_ofNat {base : Nat} (hb : 2 ≤ base) (n : Nat) : Fits base (ofNat base n) := by
  induction n using Nat.strongRecOn with
  | _ n ih =>
    by_cases hn : n = 0
    · simp [hn, fits_nil]
    · rw [ofNat_of_pos hb hn]
      exact fits_cons.2 ⟨Nat.mod_lt _ (by omega),
        ih _ (Nat.div_lt_self (Nat.pos_of_ne_zero hn) hb)⟩

/-! ## Zeros at the top -/

/-- Without the zeros at the top; nothing is left of zero. -/
def significant : List Nat → List Nat
  | [] => []
  | d :: ds =>
    match significant ds with
    | [] => if d = 0 then [] else [d]
    | e :: es => d :: e :: es

/-- Without the zeros at the top, but zero keeps one. -/
def trim (ds : List Nat) : List Nat :=
  match significant ds with
  | [] => [0]
  | e :: es => e :: es

/-- There is a digit, and the top one is zero only in zero itself. -/
def Trimmed (ds : List Nat) : Prop := ds ≠ [] ∧ (ds.getLast? = some 0 → ds = [0])

instance (ds : List Nat) : Decidable (Trimmed ds) :=
  inferInstanceAs (Decidable (_ ∧ _))

theorem significant_cons (d : Nat) (ds : List Nat) :
    significant (d :: ds) = if significant ds = [] ∧ d = 0 then [] else d :: significant ds := by
  rw [significant]
  split <;> simp_all

theorem value_significant (base : Nat) (ds : List Nat) :
    value base (significant ds) = value base ds := by
  induction ds with
  | nil => rfl
  | cons d ds ih =>
    rw [significant_cons]
    split
    · rename_i h
      rw [h.1] at ih
      simp [h.2, ← ih]
    · simp [ih]

theorem significant_mem {ds : List Nat} {d : Nat} (h : d ∈ significant ds) : d ∈ ds := by
  induction ds with
  | nil => exact h
  | cons e ds ih =>
    rw [significant_cons] at h
    split at h
    · simp at h
    · rcases List.mem_cons.1 h with h | h
      · simp [h]
      · exact List.mem_cons_of_mem _ (ih h)

theorem getLast?_significant (ds : List Nat) : (significant ds).getLast? ≠ some 0 := by
  induction ds with
  | nil => simp [significant]
  | cons d ds ih =>
    rw [significant_cons]
    split
    · simp
    · rename_i h
      rw [List.getLast?_cons]
      cases hs : significant ds with
      | nil => simpa [hs] using h
      | cons e es =>
        rw [hs, List.getLast?_eq_some_getLast (List.cons_ne_nil e es)] at ih
        simpa [List.getLast?_eq_some_getLast (List.cons_ne_nil e es)] using ih

theorem trim_of_significant {ds : List Nat} (h : significant ds ≠ []) :
    trim ds = significant ds := by
  rw [trim]
  split
  · contradiction
  · rename_i hs; exact hs.symm

theorem value_trim (base : Nat) (ds : List Nat) : value base (trim ds) = value base ds := by
  rw [← value_significant base ds, trim]
  split <;> simp_all

theorem Fits.trim {base : Nat} {ds : List Nat} (hb : 0 < base) (h : Fits base ds) :
    Fits base (trim ds) := by
  rw [Digits.trim]
  split
  · simpa [Fits] using hb
  · rename_i e es hs
    exact fun d hd => h d (significant_mem (hs ▸ hd))

theorem trimmed_trim (ds : List Nat) : Trimmed (trim ds) := by
  rw [trim]
  split
  · simp [Trimmed]
  · rename_i e es hs
    refine ⟨by simp, fun h => absurd h (hs ▸ getLast?_significant ds)⟩

/-- Trimmed digits that do not spell zero are all significant. -/
theorem Trimmed.significant_eq {ds : List Nat} (h : Trimmed ds) (h0 : ds ≠ [0]) :
    significant ds = ds := by
  induction ds with
  | nil => exact absurd rfl h.1
  | cons d ds ih =>
    rw [significant_cons]
    cases ds with
    | nil => simp_all [significant]
    | cons e es =>
      have hl : (e :: es).getLast? ≠ some 0 := by
        intro hl
        have := h.2 (by rw [List.getLast?_cons_cons]; exact hl)
        simp at this
      have := ih ⟨by simp, fun h => absurd h hl⟩ (by rintro h; simp [h] at hl)
      simp [this]

theorem Trimmed.trim_eq {ds : List Nat} (h : Trimmed ds) : trim ds = ds := by
  by_cases h0 : ds = [0]
  · subst h0; rfl
  · have hs := h.significant_eq h0
    rw [trim_of_significant (by rw [hs]; exact h.1), hs]

/-- The digits of a number have no zero at the top. -/
theorem getLast?_ofNat {base : Nat} (hb : 2 ≤ base) (n : Nat) :
    (ofNat base n).getLast? ≠ some 0 := by
  induction n using Nat.strongRecOn with
  | _ n ih =>
    by_cases hn : n = 0
    · simp [hn]
    · have hrest := ih _ (Nat.div_lt_self (Nat.pos_of_ne_zero hn) hb)
      rw [ofNat_of_pos hb hn]
      by_cases hq : n / base = 0
      · have hmod := Nat.div_add_mod n base
        rw [hq, Nat.mul_zero, Nat.zero_add] at hmod
        simpa [hq, hmod] using hn
      · rw [ofNat_of_pos hb hq] at hrest ⊢
        rwa [List.getLast?_cons_cons]

theorem trimmed_ofNat {base n : Nat} (hb : 2 ≤ base) (hn : n ≠ 0) : Trimmed (ofNat base n) := by
  refine ⟨?_, fun h => absurd h (getLast?_ofNat hb n)⟩
  rw [ofNat_of_pos hb hn]
  exact List.cons_ne_nil _ _

/-! ## One way to write a number -/

/-- The significant digits depend on the number alone. -/
theorem significant_eq_of_value {base : Nat} {as bs : List Nat} (ha : Fits base as)
    (hb : Fits base bs) (h : value base as = value base bs) : significant as = significant bs := by
  induction as generalizing bs with
  | nil =>
    induction bs with
    | nil => rfl
    | cons b bs ih =>
      obtain ⟨hb1, hb2⟩ := fits_cons.1 hb
      simp only [value_nil, value_cons] at h
      have h0 : b = 0 := by omega
      have hv : value base bs = 0 := by
        rcases Nat.mul_eq_zero.1 (show base * value base bs = 0 by omega) with h | h <;> omega
      have := ih hb2 (by simp [hv])
      rw [significant_cons, ← this]
      simp [h0, significant]
  | cons a as ih =>
    obtain ⟨ha1, ha2⟩ := fits_cons.1 ha
    cases bs with
    | nil =>
      simp only [value_nil, value_cons] at h
      have h0 : a = 0 := by omega
      have hv : value base as = 0 := by
        rcases Nat.mul_eq_zero.1 (show base * value base as = 0 by omega) with h | h <;> omega
      have := ih ha2 (fits_nil base) (by simp [hv])
      rw [significant_cons, this]
      simp [h0, significant]
    | cons b bs =>
      obtain ⟨hb1, hb2⟩ := fits_cons.1 hb
      simp only [value_cons] at h
      have h1 : a = b := by
        have := congrArg (· % base) h
        simpa [Nat.add_mul_mod_self_left, Nat.mod_eq_of_lt ha1, Nat.mod_eq_of_lt hb1] using this
      have h2 : value base as = value base bs :=
        Nat.eq_of_mul_eq_mul_left (show 0 < base by omega) (by omega)
      rw [significant_cons, significant_cons, ih ha2 hb2 h2, h1]

theorem trim_eq_of_value {base : Nat} {as bs : List Nat} (ha : Fits base as)
    (hb : Fits base bs) (h : value base as = value base bs) : trim as = trim bs := by
  simp only [trim, significant_eq_of_value ha hb h]

/-- Trimmed digits are the only ones for their number. -/
theorem Trimmed.eq_of_value {base : Nat} {as bs : List Nat} (hat : Trimmed as)
    (hbt : Trimmed bs) (ha : Fits base as) (hb : Fits base bs)
    (h : value base as = value base bs) : as = bs := by
  rw [← hat.trim_eq, ← hbt.trim_eq, trim_eq_of_value ha hb h]

theorem Trimmed.value_eq_zero {base : Nat} {ds : List Nat} (h : Trimmed ds)
    (hf : Fits base ds) : value base ds = 0 ↔ ds = [0] := by
  constructor
  · intro hv
    have hb : 0 < base := by
      cases ds with
      | nil => exact absurd rfl h.1
      | cons d ds => exact Nat.lt_of_le_of_lt (Nat.zero_le d) (fits_cons.1 hf).1
    exact h.eq_of_value (by decide) hf (by simpa [Fits] using hb) (by simp [hv])
  · rintro rfl
    simp

end Abacus.Digits
