-- The product of two digit lists, row by row. All rows go into one buffer:
-- each digit of the second list adds its multiple of the first list, one
-- place higher than the row before, and a last carry ripples on upward. A
-- buffer of one place more than both lists together is never too short.
import Abacus.Digits.Basic

namespace Abacus.Digits

/-- Adds a carry at the low end of a buffer and lets it ripple. -/
def flush? (base carry : Nat) : List Nat → Option (List Nat)
  | [] => if carry = 0 then some [] else none
  | x :: buf =>
    if carry = 0 then some (x :: buf)
    else (flush? base ((x + carry) / base) buf).map ((x + carry) % base :: ·)

/-- Adds `d` times the digits, and the carry, at the low end of a buffer. -/
def addRow? (base d : Nat) : List Nat → Nat → List Nat → Option (List Nat)
  | [], carry, buf => flush? base carry buf
  | _ :: _, _, [] => none
  | a :: as, carry, x :: buf =>
    (addRow? base d as ((a * d + carry + x) / base) buf).map ((a * d + carry + x) % base :: ·)

/-- Adds one row for each digit of the second list, the first at `place`. -/
def addRows? (base : Nat) (as : List Nat) : Nat → List Nat → List Nat → Option (List Nat)
  | _, [], buf => some buf
  | place, d :: bs, buf =>
    match addRow? base d as 0 (buf.drop place) with
    | none => none
    | some row => addRows? base as (place + 1) bs (buf.take place ++ row)

/-- The product, in a buffer that starts as zeros. -/
def mul? (base : Nat) (as bs : List Nat) : Option (List Nat) :=
  addRows? base as 0 bs (List.replicate (as.length + bs.length + 1) 0)

/-! ## One row -/

/-- A carry that the buffer has room for comes to rest in it. -/
theorem flush?_eq_some {base carry : Nat} {buf : List Nat} (hb : 2 ≤ base) (hf : Fits base buf)
    (h : value base buf + carry < weight base buf.length) :
    ∃ out, flush? base carry buf = some out ∧ out.length = buf.length ∧ Fits base out ∧
      value base out = value base buf + carry := by
  induction buf generalizing carry with
  | nil =>
    have : carry = 0 := by simpa using h
    exact ⟨[], by simp [flush?, this], rfl, fits_nil base, by simp [this]⟩
  | cons x buf ih =>
    by_cases hc : carry = 0
    · exact ⟨x :: buf, by simp [flush?, hc], rfl, hf, by simp [hc]⟩
    · obtain ⟨hx, hbuf⟩ := fits_cons.1 hf
      have hm := Nat.mod_add_div (x + carry) base
      have hroom : value base buf + (x + carry) / base < weight base buf.length := by
        apply Nat.lt_of_mul_lt_mul_left (a := base)
        simp only [value_cons, List.length_cons, weight_succ] at h
        rw [Nat.mul_add]
        omega
      obtain ⟨out, h1, h2, h3, h4⟩ := ih hbuf hroom
      refine ⟨(x + carry) % base :: out, by simp [flush?, hc, h1], by simp [h2],
        fits_cons.2 ⟨Nat.mod_lt _ (by omega), h3⟩, ?_⟩
      simp only [value_cons, h4, Nat.mul_add]
      omega

/-- Two digits, a carry below the base and a digit of the buffer leave a carry
below the base. -/
theorem carry_lt {base a d carry x : Nat} (ha : a < base) (hd : d < base) (hc : carry < base)
    (hx : x < base) : (a * d + carry + x) / base < base := by
  rw [Nat.div_lt_iff_lt_mul (by omega)]
  have h1 : a * d ≤ (base - 1) * (base - 1) := Nat.mul_le_mul (by omega) (by omega)
  obtain ⟨b, rfl⟩ : ∃ b, base = b + 1 := ⟨base - 1, by omega⟩
  simp only [Nat.add_sub_cancel] at h1
  have h2 : (b + 1) * (b + 1) = b * b + 2 * b + 1 := by grind
  omega

theorem addRow?_eq_some {base d carry : Nat} {as buf : List Nat} (hb : 2 ≤ base)
    (hd : d < base) (ha : Fits base as) (hc : carry < base) (hf : Fits base buf)
    (hl : as.length ≤ buf.length)
    (h : value base buf + d * value base as + carry < weight base buf.length) :
    ∃ out, addRow? base d as carry buf = some out ∧ out.length = buf.length ∧ Fits base out ∧
      value base out = value base buf + d * value base as + carry := by
  induction as generalizing carry buf with
  | nil =>
    simp only [value_nil, Nat.mul_zero, Nat.add_zero] at h ⊢
    exact flush?_eq_some hb hf h
  | cons a as ih =>
    cases buf with
    | nil => simp at hl
    | cons x buf =>
      obtain ⟨ha1, ha2⟩ := fits_cons.1 ha
      obtain ⟨hx, hbuf⟩ := fits_cons.1 hf
      have hm := Nat.mod_add_div (a * d + carry + x) base
      have hmul : d * (a + base * value base as) = a * d + base * (d * value base as) := by
        grind
      have hroom : value base buf + d * value base as + (a * d + carry + x) / base <
          weight base buf.length := by
        apply Nat.lt_of_mul_lt_mul_left (a := base)
        simp only [value_cons, List.length_cons, weight_succ, hmul] at h
        simp only [Nat.mul_add]
        omega
      obtain ⟨out, h1, h2, h3, h4⟩ := ih ha2 (carry_lt ha1 hd hc hx) hbuf
        (by simpa using hl) hroom
      refine ⟨(a * d + carry + x) % base :: out, by simp [addRow?, h1], by simp [h2],
        fits_cons.2 ⟨Nat.mod_lt _ (by omega), h3⟩, ?_⟩
      simp only [value_cons, h4, hmul, Nat.mul_add]
      omega

/-! ## All rows -/

theorem addRows?_eq_some {base place : Nat} {as bs buf : List Nat} (hb : 2 ≤ base)
    (ha : Fits base as) (hbs : Fits base bs) (hf : Fits base buf)
    (hl : as.length + bs.length + place < buf.length)
    (h : value base buf + weight base place * (value base as * value base bs) < weight base buf.length) :
    ∃ out, addRows? base as place bs buf = some out ∧ out.length = buf.length ∧
      Fits base out ∧
      value base out = value base buf + weight base place * (value base as * value base bs) := by
  induction bs generalizing place buf with
  | nil => exact ⟨buf, rfl, rfl, hf, by simp⟩
  | cons d bs ih =>
    obtain ⟨hd, hbs'⟩ := fits_cons.1 hbs
    simp only [List.length_cons] at hl
    have hsplit := List.take_append_drop place buf
    have hlow : (buf.take place).length = place := by simp; omega
    have hval : value base buf =
        value base (buf.take place) + weight base place * value base (buf.drop place) := by
      have := value_append base (buf.take place) (buf.drop place)
      rwa [hsplit, hlow] at this
    have hlen : weight base buf.length = weight base place * weight base (buf.drop place).length := by
      rw [← weight_add, List.length_drop]
      congr 1
      omega
    have hfit := fits_append.1 (hsplit.symm ▸ hf)
    have hpos : 0 < weight base place := weight_pos (by omega) place
    have hmul : weight base place * (value base as * value base (d :: bs)) =
        weight base place * (d * value base as) +
          weight base (place + 1) * (value base as * value base bs) := by
      rw [value_cons, weight_succ]
      grind
    have hroom : value base (buf.drop place) + d * value base as + 0 <
        weight base (buf.drop place).length := by
      apply Nat.lt_of_mul_lt_mul_left (a := weight base place)
      rw [hval, hlen, hmul] at h
      simp only [Nat.mul_add, Nat.add_zero]
      omega
    obtain ⟨row, h1, h2, h3, h4⟩ := addRow?_eq_some hb hd ha (by omega) hfit.2
      (by simp; omega) hroom
    have hout : value base (buf.take place ++ row) =
        value base buf + weight base place * (d * value base as) := by
      rw [value_append, hlow, h4, hval]
      simp only [Nat.mul_add, Nat.add_zero]
      omega
    have hsame : (buf.take place ++ row).length = buf.length := by
      rw [List.length_append, h2, ← List.length_append, hsplit]
    obtain ⟨out, g1, g2, g3, g4⟩ := @ih (place + 1) (buf.take place ++ row) hbs'
      (fits_append.2 ⟨hfit.1, h3⟩) (by omega)
      (by rw [hout, hsame]; rw [hmul] at h; omega)
    refine ⟨out, by simp [addRows?, h1, g1], by rw [g2, hsame], g3, ?_⟩
    rw [g4, hout, hmul]
    omega

/-- The product always fits its buffer. -/
theorem mul?_eq_some {base : Nat} {as bs : List Nat} (hb : 2 ≤ base) (ha : Fits base as)
    (hbs : Fits base bs) :
    ∃ out, mul? base as bs = some out ∧ out.length = as.length + bs.length + 1 ∧
      Fits base out ∧ value base out = value base as * value base bs := by
  have hlt : value base as * value base bs < weight base (as.length + bs.length + 1) := by
    have h1 : value base as * value base bs ≤ weight base as.length * weight base bs.length :=
      Nat.mul_le_mul (Nat.le_of_lt ha.value_lt) (Nat.le_of_lt hbs.value_lt)
    rw [← weight_add] at h1
    have h2 := weight_pos (show 0 < base by omega) (as.length + bs.length)
    have h3 := Nat.mul_le_mul_right (weight base (as.length + bs.length)) hb
    rw [weight_succ]
    omega
  obtain ⟨out, h1, h2, h3, h4⟩ := @addRows?_eq_some base 0 as bs
    (List.replicate (as.length + bs.length + 1) 0) hb ha hbs (Fits.replicate_zero (by omega) _) (by simp) (by simpa using hlt)
  exact ⟨out, h1, by simpa using h2, h3, by simpa using h4⟩

end Abacus.Digits
