-- The laws of the buffer of a product. Before each row the buffer holds digits, and
-- they stand for the rows so far. Within a row every carry is a digit of the base, and
-- the last carry of the row comes to rest before the buffer ends, because all the rows
-- together have room in it.
import Abacus.Proofs.Arithmetic
import Abacus.Proofs.InPlace

open Relation (ReflTransGen)

namespace Abacus.Digits

/-! ## The work, step by step -/

/-- A product on the way: the buffer, the row that it is at, how many digits that row
has added, the place that is written next, and the carry. -/
structure Filling where
  buffer : List Nat
  row : Nat
  added : Nat
  place : Nat
  carry : Nat

/-- The buffer as a row finds it, or as the last row leaves it. -/
def Filling.before (row : Nat) (buffer : List Nat) : Filling := ⟨buffer, row, 0, row, 0⟩

/-- All zeros, before the first row. -/
def Filling.start (as bs : List Nat) : Filling :=
  .before 0 (List.replicate (as.length + bs.length + 1) 0)

/-- One step of a product: the row adds the next digit of the first number, its carry
ripples on once all of them are added, or the next row has its turn. A step writes one
place, and only a place that the buffer has. -/
inductive Fills (base : Nat) (as bs : List Nat) : Filling → Filling → Prop
  | adds {buffer : List Nat} {row added place carry a d x : Nat} : as[added]? = some a →
      bs[row]? = some d → buffer[place]? = some x →
      Fills base as bs ⟨buffer, row, added, place, carry⟩
        ⟨buffer.set place ((a * d + carry + x) % base), row, added + 1, place + 1,
          (a * d + carry + x) / base⟩
  | ripples {buffer : List Nat} {row added place carry x : Nat} : as.length ≤ added →
      carry ≠ 0 → buffer[place]? = some x →
      Fills base as bs ⟨buffer, row, added, place, carry⟩
        ⟨buffer.set place ((x + carry) % base), row, added, place + 1, (x + carry) / base⟩
  | turns {buffer : List Nat} {row added place : Nat} : as.length ≤ added → row < bs.length →
      Fills base as bs ⟨buffer, row, added, place, 0⟩ (.before (row + 1) buffer)

section

variable {base : Nat} {as bs : List Nat}

theorem fills_unique (base : Nat) (as bs : List Nat) : Relator.RightUnique (Fills base as bs) := by
  intro w t u ht hu
  cases ht with
  | adds ha hd hx =>
    have hadded := lt_length_of_getElem? ha
    cases hu with
    | adds ha' hd' hx' =>
      cases ha.symm.trans ha'
      cases hd.symm.trans hd'
      cases hx.symm.trans hx'
      rfl
    | ripples hle _ _ => omega
    | turns hle _ => omega
  | ripples hle hcarry hx =>
    cases hu with
    | adds ha' _ _ =>
      have hadded := lt_length_of_getElem? ha'
      omega
    | ripples _ _ hx' =>
      cases hx.symm.trans hx'
      rfl
    | turns _ _ => exact absurd rfl hcarry
  | turns hle _ =>
    cases hu with
    | adds ha' _ _ =>
      have hadded := lt_length_of_getElem? ha'
      omega
    | ripples _ hcarry _ => exact absurd rfl hcarry
    | turns _ _ => rfl

/-! ## What the buffer and the carry are worth -/

/-- What all rows before this one come to, and this row as far as it has added. -/
def Filling.due (base : Nat) (as bs : List Nat) (w : Filling) : Nat :=
  value base as * value base (bs.take w.row) +
    weight base w.row * (bs.getD w.row 0 * value base (as.take w.added))

/-- The buffer holds digits and keeps its size, the carry is a digit too, and together
they are worth what is due. The next place to write is one of the buffer. -/
structure Filling.Sound (base : Nat) (as bs : List Nat) (w : Filling) : Prop where
  size : w.buffer.length = as.length + bs.length + 1
  fits : Fits base w.buffer
  carry_lt : w.carry < base
  added_le : w.added ≤ as.length
  place_eq : w.added < as.length → w.place = w.row + w.added
  inside : w.place ≤ as.length + bs.length
  worth : value base w.buffer + weight base w.place * w.carry = w.due base as bs

theorem value_take_le (base n : Nat) (ds : List Nat) : value base (ds.take n) ≤ value base ds := by
  have hsplit := value_append base (ds.take n) (ds.drop n)
  rw [List.take_append_drop] at hsplit
  omega

@[simp] theorem due_before (row : Nat) (buffer : List Nat) :
    (Filling.before row buffer).due base as bs = value base as * value base (bs.take row) := by
  simp [Filling.before, Filling.due]

/-- A row that has added all of its digits is due as part of the rows so far. -/
theorem due_of_full {w : Filling} {d : Nat} (hfull : as.length ≤ w.added)
    (hd : bs[w.row]? = some d) :
    w.due base as bs = value base as * value base (bs.take (w.row + 1)) := by
  unfold Filling.due
  rw [List.take_of_length_le hfull, value_take_succ hd, Nat.mul_add, List.getD_eq_getElem?_getD, hd]
  simp only [Option.getD_some]
  grind

theorem due_le (w : Filling) : w.due base as bs ≤ value base as * value base bs := by
  have htake := value_take_le base w.added as
  unfold Filling.due
  cases hd : bs[w.row]? with
  | none =>
    simp only [List.getD_eq_getElem?_getD, hd, Option.getD_none, Nat.zero_mul, Nat.mul_zero,
      Nat.add_zero]
    exact Nat.mul_le_mul_left _ (value_take_le base w.row bs)
  | some d =>
    simp only [List.getD_eq_getElem?_getD, hd, Option.getD_some]
    have hrows := Nat.mul_le_mul_left (value base as) (value_take_le base (w.row + 1) bs)
    rw [value_take_succ hd, Nat.mul_add] at hrows
    have hrow : weight base w.row * (d * value base (as.take w.added)) ≤
        value base as * (weight base w.row * d) := by
      rw [← Nat.mul_assoc, Nat.mul_comm]
      exact Nat.mul_le_mul_right _ htake
    omega

/-- All the rows together have room below the top place of the buffer. -/
theorem due_lt (w : Filling) (has : Fits base as) (hbs : Fits base bs) :
    w.due base as bs < weight base (as.length + bs.length) := by
  rw [weight_add]
  exact Nat.lt_of_le_of_lt (due_le w) (Nat.mul_lt_mul'' has.value_lt hbs.value_lt)

/-- Writing what a digit of the base is left with, and carrying the rest one place up,
adds to the worth of the work what was added at the place. -/
theorem worth_carried {buffer : List Nat} {place x : Nat} (hx : buffer[place]? = some x)
    (n : Nat) :
    value base (buffer.set place ((n + x) % base)) +
        weight base (place + 1) * ((n + x) / base) =
      value base buffer + weight base place * n := by
  have hset := value_set base hx ((n + x) % base)
  have hsplit : weight base place * ((n + x) % base) +
      weight base place * (base * ((n + x) / base)) = weight base place * (n + x) := by
    rw [← Nat.mul_add, Nat.mod_add_div]
  rw [Nat.mul_add] at hsplit
  rw [weight_succ, Nat.mul_comm base, Nat.mul_assoc]
  omega

/-- Each step keeps the worth of the work at what is due. -/
theorem Filling.Sound.step {w t : Filling} (h : w.Sound base as bs) (hbase : 2 ≤ base)
    (has : Fits base as) (hbs : Fits base bs) (hstep : Fills base as bs w t) :
    t.Sound base as bs := by
  obtain ⟨hsize, hfits, hcarry, hadded, hplace, hinside, hworth⟩ := h
  cases hstep with
  | @adds buffer row added place carry a d x ha hd hx =>
    have hlt := lt_length_of_getElem? ha
    have hrow := lt_length_of_getElem? hd
    have heq : place = row + added := hplace hlt
    refine ⟨by simpa using hsize, hfits.set (Nat.mod_lt _ (by omega)), ?_, hlt, ?_, ?_, ?_⟩
    · exact Digits.carry_lt (has.getElem? ha) (hbs.getElem? hd) hcarry (hfits.getElem? hx)
    · intro _
      simp only [heq, Nat.add_assoc]
    · simp only
      omega
    · have hg : bs.getD row 0 = d := by simp [List.getD_eq_getElem?_getD, hd]
      have hdigit : weight base place * (a * d) =
          weight base row * (d * (weight base added * a)) := by
        rw [heq, weight_add]
        ac_rfl
      simp only [due, hg] at hworth ⊢
      rw [worth_carried hx, value_take_succ ha]
      simp only [Nat.mul_add, hdigit]
      omega
  | @ripples buffer row added place carry x hfull hpos hx =>
    -- A carry at this place is worth its weight, which all the rows stay below.
    have hlt : place < as.length + bs.length := by
      have hdue := due_lt ⟨buffer, row, added, place, carry⟩ has hbs
      rw [← hworth] at hdue
      have hweight := Nat.le_mul_of_pos_right (weight base place) (Nat.pos_of_ne_zero hpos)
      apply Nat.lt_of_not_le
      intro hpast
      have hle := weight_le (show 0 < base by omega) hpast
      simp only at hdue
      omega
    refine ⟨by simpa using hsize, hfits.set (Nat.mod_lt _ (by omega)), ?_, hadded, ?_, hlt, ?_⟩
    · have hzero : 0 < base := by omega
      simpa [Nat.add_comm] using Digits.carry_lt hzero hzero hcarry (hfits.getElem? hx)
    · intro hmore
      simp only at hmore
      omega
    · simp only [Nat.add_comm x carry]
      exact (worth_carried hx carry).trans hworth
  | @turns buffer row added place hfull hrow =>
    obtain ⟨d, hd⟩ : ∃ d, bs[row]? = some d := ⟨_, List.getElem?_eq_getElem hrow⟩
    refine ⟨hsize, hfits, hcarry, Nat.zero_le _, fun _ => rfl, by simp [before]; omega, ?_⟩
    rw [due_before]
    exact hworth.trans (due_of_full hfull hd)

theorem Filling.sound_start (hbase : 2 ≤ base) : (start as bs).Sound base as bs where
  size := by simp [start, before]
  fits := Fits.replicate_zero (by omega) _
  carry_lt := by simp only [start, before]; omega
  added_le := Nat.zero_le _
  place_eq _ := rfl
  inside := Nat.zero_le _
  worth := by simp [start, before, due]

theorem Filling.sound_of_run (hbase : 2 ≤ base) (has : Fits base as) (hbs : Fits base bs)
    {w : Filling} (hrun : ReflTransGen (Fills base as bs) (start as bs) w) :
    w.Sound base as bs := by
  induction hrun with
  | refl => exact sound_start hbase
  | tail _ hstep ih => exact ih.step hbase has hbs hstep

/-! ## The work is the product -/

/-- The last carry of a row comes to rest as the rippling says. -/
theorem run_of_flush? {buffer out : List Nat} {row added place carry : Nat}
    (h : flush? base carry (buffer.drop place) = some out) (hfull : as.length ≤ added) :
    ∃ rest, ReflTransGen (Fills base as bs) ⟨buffer, row, added, place, carry⟩
      ⟨buffer.take place ++ out, row, added, rest, 0⟩ := by
  generalize htop : buffer.drop place = top at h
  induction top generalizing buffer place carry out with
  | nil =>
    by_cases hcarry : carry = 0
    · simp only [flush?, hcarry, ↓reduceIte, Option.some.injEq] at h
      subst h hcarry
      rw [List.append_nil, List.take_of_length_le (List.drop_eq_nil_iff.1 htop)]
      exact ⟨place, .refl⟩
    · simp [flush?, hcarry] at h
  | cons x top ih =>
    by_cases hcarry : carry = 0
    · simp only [flush?, hcarry, ↓reduceIte, Option.some.injEq] at h
      subst h hcarry
      rw [← htop, List.take_append_drop]
      exact ⟨place, .refl⟩
    · obtain ⟨hx, hup⟩ := getElem?_of_drop htop
      simp only [flush?, hcarry, ↓reduceIte] at h
      obtain ⟨above, habove, rfl⟩ := Option.map_eq_some_iff.1 h
      obtain ⟨rest, hrest⟩ := @ih (buffer.set place ((x + carry) % base)) above (place + 1) _
        (by rw [List.drop_set_of_lt (Nat.lt_add_one place), hup]) habove
      rw [take_succ_set hx, List.append_assoc] at hrest
      exact ⟨rest, .head (.ripples hfull hcarry hx) hrest⟩

/-- One row goes as it is added up. -/
theorem run_of_addRow? {buffer out : List Nat} {row added place carry d : Nat}
    (h : addRow? base d (as.drop added) carry (buffer.drop place) = some out)
    (hd : bs[row]? = some d) :
    ∃ full rest, as.length ≤ full ∧
      ReflTransGen (Fills base as bs) ⟨buffer, row, added, place, carry⟩
        ⟨buffer.take place ++ out, row, full, rest, 0⟩ := by
  generalize hleft : as.drop added = left at h
  induction left generalizing buffer added place carry out with
  | nil =>
    have hfull := List.drop_eq_nil_iff.1 hleft
    exact ⟨added, (run_of_flush? h hfull).imp fun _ hrest => ⟨hfull, hrest⟩⟩
  | cons a left ih =>
    obtain ⟨ha, hmore⟩ := getElem?_of_drop hleft
    cases htop : buffer.drop place with
    | nil => simp [htop, addRow?] at h
    | cons x top =>
      obtain ⟨hx, hup⟩ := getElem?_of_drop htop
      rw [htop, addRow?] at h
      obtain ⟨above, habove, rfl⟩ := Option.map_eq_some_iff.1 h
      obtain ⟨full, rest, hfull, hrest⟩ :=
        @ih (buffer.set place ((a * d + carry + x) % base)) above (added + 1) (place + 1) _ hmore
          (by rwa [List.drop_set_of_lt (Nat.lt_add_one place), hup])
      rw [take_succ_set hx, List.append_assoc] at hrest
      exact ⟨full, rest, hfull, .head (.adds ha hd hx) hrest⟩

/-- Rows for the next digits of the second number go as they are added up, one after
the other. -/
theorem run_of_addRows? {ds rest buffer out : List Nat} {row : Nat}
    (h : addRows? base as row ds buffer = some out) (hds : bs.drop row = ds ++ rest) :
    ReflTransGen (Fills base as bs) (.before row buffer) (.before (row + ds.length) out) := by
  induction ds generalizing row buffer with
  | nil =>
    cases h
    exact .refl
  | cons d ds ih =>
    obtain ⟨hd, hmore⟩ := getElem?_of_drop hds
    cases hrow : addRow? base d as 0 (buffer.drop row) with
    | none => simp [addRows?, hrow] at h
    | some added =>
      simp only [addRows?, hrow] at h
      obtain ⟨full, place, hfull, hadds⟩ := @run_of_addRow? base as bs buffer added row 0 row 0 d hrow hd
      have hturn : Fills base as bs ⟨buffer.take row ++ added, row, full, place, 0⟩ _ :=
        .turns hfull (lt_length_of_getElem? hd)
      have hrest := ih h hmore
      rw [Nat.add_right_comm, Nat.add_assoc] at hrest
      exact (hadds.tail hturn).trans hrest

/-- Where all rows are added up, the first ones are. -/
theorem exists_of_addRows?_append {ds es buffer out : List Nat} {row : Nat}
    (h : addRows? base as row (ds ++ es) buffer = some out) :
    ∃ rows, addRows? base as row ds buffer = some rows := by
  induction ds generalizing row buffer with
  | nil => exact ⟨buffer, rfl⟩
  | cons d ds ih =>
    cases hrow : addRow? base d as 0 (buffer.drop row) with
    | none => simp [addRows?, hrow] at h
    | some added =>
      simp only [List.cons_append, addRows?, hrow] at h ⊢
      exact ih h

theorem exists_run_to_row {buffer : List Nat} (h : mul? base as bs = some buffer) {k : Nat}
    (hk : k ≤ bs.length) :
    ∃ rows, ReflTransGen (Fills base as bs) (.start as bs) (.before k rows) := by
  unfold mul? at h
  rw [← List.take_append_drop k bs] at h
  obtain ⟨rows, hrows⟩ := exists_of_addRows?_append h
  have hrun := run_of_addRows? hrows (List.take_append_drop k bs).symm
  rw [List.length_take, Nat.min_eq_left hk, Nat.zero_add] at hrun
  exact ⟨rows, by simpa [Filling.start] using hrun⟩

theorem run_of_mul? {buffer : List Nat} (h : mul? base as bs = some buffer) :
    ReflTransGen (Fills base as bs) (.start as bs) (.before bs.length buffer) := by
  have hrun := @run_of_addRows? base as bs bs [] _ buffer 0 h (by simp)
  rwa [Nat.zero_add] at hrun

/-- After the last row nothing is left to do. -/
theorem not_fills_of_last {buffer : List Nat} (t : Filling) :
    ¬ Fills base as bs (.before bs.length buffer) t := by
  intro h
  cases h with
  | adds _ hd _ => exact absurd (lt_length_of_getElem? hd) (Nat.lt_irrefl _)
  | ripples _ hcarry _ => exact hcarry rfl
  | turns _ hrow => exact absurd hrow (Nat.lt_irrefl _)

end

end Abacus.Digits

namespace Abacus.Decimal

open Digits (Filling Fills)

/-! ## The law -/

/-- For two numbers that are not zero, filling the buffer of their product comes to an
end, and it leaves the digits of the product. On the way every carry is a digit, and
the next place to write is one of the buffer. Before each row, and after the last one,
the buffer holds digits, and they stand for the first number times the digits of the
second one below that row. -/
theorem rows_stay_in_their_buffer (a b : Decimal) (ha : a.toInt ≠ 0) (hb : b.toInt ≠ 0) :
    ∃ buffer, Digits.mul? 10 a.digits b.digits = some buffer ∧
      Numeral.Makes buffer (a.negative != b.negative) (a.mul b).toNumeral ∧
      Ends (Fills 10 a.digits b.digits) (.start a.digits b.digits) (.before b.length buffer) ∧
      (∀ w, ReflTransGen (Fills 10 a.digits b.digits) (.start a.digits b.digits) w →
        w.carry < 10 ∧ w.buffer.length = a.length + b.length + 1 ∧
          w.place < a.length + b.length + 1) ∧
      ∀ k ≤ b.length,
        (∃ rows, ReflTransGen (Fills 10 a.digits b.digits) (.start a.digits b.digits)
          (.before k rows)) ∧
        ∀ rows, ReflTransGen (Fills 10 a.digits b.digits) (.start a.digits b.digits)
            (.before k rows) →
          (∀ d ∈ rows, d < 10) ∧
            Digits.value 10 rows = a.magnitude * Digits.value 10 (b.digits.take k) := by
  obtain ⟨buffer, hbuffer, hmakes⟩ := Numeral.makes_mul ha hb
  refine ⟨buffer, hbuffer, hmakes, ends_of_run (Digits.fills_unique 10 a.digits b.digits)
    (Digits.run_of_mul? hbuffer) Digits.not_fills_of_last, fun w hw => ?_, fun k hk =>
    ⟨Digits.exists_run_to_row hbuffer hk, fun rows hrows => ?_⟩⟩
  · have hsound := Digits.Filling.sound_of_run (by decide) a.fits_ten b.fits_ten hw
    exact ⟨hsound.carry_lt, hsound.size, Nat.lt_succ_of_le hsound.inside⟩
  · have hsound := Digits.Filling.sound_of_run (by decide) a.fits_ten b.fits_ten hrows
    refine ⟨hsound.fits, ?_⟩
    have hworth := hsound.worth
    rw [Digits.due_before, ← magnitude_eq] at hworth
    simpa [Filling.before] using hworth

/-- Minus ninety-nine by ninety-nine: nearly every step carries. -/
theorem ninety_nine_by_ninety_nine_row_by_row :
    let a : Decimal := .ofTopDigits [9, 9] true
    let b : Decimal := .ofTopDigits [9, 9] false
    (a.toInt ≠ 0 ∧ b.toInt ≠ 0) ∧
      (∃ rows, ReflTransGen (Fills 10 a.digits b.digits) (.start a.digits b.digits)
        (.before 1 rows) ∧ Digits.value 10 rows = 891) ∧
      ∃ buffer, Ends (Fills 10 a.digits b.digits) (.start a.digits b.digits)
        (.before 2 buffer) ∧ Digits.value 10 buffer = 9801 := by
  intro a b
  have ha : a.toInt ≠ 0 := by decide
  have hb : b.toInt ≠ 0 := by decide
  obtain ⟨buffer, _, _, hends, _, hrows⟩ := rows_stay_in_their_buffer a b ha hb
  obtain ⟨⟨rows, hone⟩, hfirst⟩ := hrows 1 (by decide)
  have hlast := (hrows 2 (by decide)).2 buffer (hends.reaches _ .refl)
  exact ⟨⟨ha, hb⟩, ⟨rows, hone, (hfirst rows hone).2.trans (by decide)⟩, buffer, hends,
    hlast.2.trans (by decide)⟩

end Abacus.Decimal
