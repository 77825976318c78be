-- The laws of borrowing. A digit that is too small asks the places above it for a
-- loan, one after the other, and nothing tells it where the working copy ends. From a
-- number at least as large as the one taken away it never gets there: what is left of
-- the copy always covers what is left to take away, so some digit on the way can lend.
import Abacus.Digits.Difference
import Abacus.Proofs.InPlace

open Relation (ReflTransGen)

namespace Abacus.Digits

/-! ## The work, step by step -/

/-- A difference on the way: the working copy, the place that the work has come to, the
digits found so far, and the place that is asked for a loan, if there is one. -/
structure Taking where
  copy : List Nat
  place : Nat
  found : List Nat
  asked : Option Nat

/-- Before the first digit. -/
def Taking.start (as : List Nat) : Taking := ⟨as, 0, [], none⟩

/-- One step of taking `bs` away: a digit is large enough, or it asks the next place
for a loan; a zero that is asked becomes a top digit and the place above it is asked,
any other digit lends one. Every rule reads the places that it names. -/
inductive Borrows (base : Nat) (bs : List Nat) : Taking → Taking → Prop
  | spared {copy found : List Nat} {place x : Nat} : copy[place]? = some x →
      bs.getD place 0 ≤ x →
      Borrows base bs ⟨copy, place, found, none⟩
        ⟨copy, place + 1, found ++ [x - bs.getD place 0], none⟩
  | asks {copy found : List Nat} {place x : Nat} : copy[place]? = some x →
      x < bs.getD place 0 →
      Borrows base bs ⟨copy, place, found, none⟩ ⟨copy, place, found, some (place + 1)⟩
  | passes {copy found : List Nat} {place asked : Nat} : copy[asked]? = some 0 →
      Borrows base bs ⟨copy, place, found, some asked⟩
        ⟨copy.set asked (base - 1), place, found, some (asked + 1)⟩
  | lends {copy found : List Nat} {place asked x y : Nat} : copy[asked]? = some (y + 1) →
      copy[place]? = some x →
      Borrows base bs ⟨copy, place, found, some asked⟩
        ⟨(copy.set asked y).set place (x + base), place + 1,
          found ++ [x + base - bs.getD place 0], none⟩

section

variable {base : Nat} {bs : List Nat}

/-- The digits leave no choice. -/
theorem borrows_unique (base : Nat) (bs : List Nat) : Relator.RightUnique (Borrows base bs) := by
  intro w t u ht hu
  cases ht with
  | spared hx hle =>
    cases hu with
    | spared hx' _ => cases hx.symm.trans hx'; rfl
    | asks hx' hlt => cases hx.symm.trans hx'; omega
  | asks hx hlt =>
    cases hu with
    | spared hx' hle => cases hx.symm.trans hx'; omega
    | asks hx' _ => rfl
  | passes h0 =>
    cases hu with
    | passes _ => rfl
    | lends hy _ => cases h0.symm.trans hy
  | lends hy hx =>
    cases hu with
    | passes h0 => cases h0.symm.trans hy
    | lends hy' hx' => cases hy.symm.trans hy'; cases hx.symm.trans hx'; rfl

theorem length_copy_of_borrows {w t : Taking} (h : Borrows base bs w t) :
    t.copy.length = w.copy.length := by
  cases h <;> simp

/-! ## What is left covers what is left to take away -/

/-- What is left of the working copy is at least what is left to take away. While a
loan is asked for, it is so above the place of the loan and with the loan on top, and
from the place that is asked on there is something to lend. -/
def Taking.Covers (base : Nat) (bs : List Nat) (w : Taking) : Prop :=
  match w.asked with
  | none => value base (bs.drop w.place) ≤ value base (w.copy.drop w.place)
  | some asked =>
    w.place < asked ∧ 0 < value base (w.copy.drop asked) ∧
      value base (bs.drop (w.place + 1)) + weight base (asked - (w.place + 1)) ≤
        value base (w.copy.drop (w.place + 1))

/-- The work never runs short: the digits still to come fit the base, and they cover
what is left to take away. -/
structure Taking.Solvent (base : Nat) (bs : List Nat) (w : Taking) : Prop where
  fits : Fits base (w.copy.drop w.place)
  covers : w.Covers base bs

theorem headD_drop (ds : List Nat) (i : Nat) : (ds.drop i).headD 0 = ds.getD i 0 := by
  simp [List.getD_eq_getElem?_getD]

theorem value_drop_getD (base : Nat) (ds : List Nat) (i : Nat) :
    value base (ds.drop i) = ds.getD i 0 + base * value base (ds.drop (i + 1)) := by
  rw [value_headD_tail, List.tail_drop, headD_drop]

/-- Writing above a place changes the digits from there up. -/
theorem value_drop_set (base : Nat) {copy : List Nat} {i k d : Nat}
    (h : copy[i + k]? = some d) (e : Nat) :
    value base ((copy.set (i + k) e).drop i) + weight base k * d =
      value base (copy.drop i) + weight base k * e := by
  have hd : (copy.drop i)[k]? = some d := by rwa [List.getElem?_drop]
  rw [List.drop_set, if_neg (by omega), Nat.add_sub_cancel_left, value_set base hd]

/-- Each step leaves enough for the next one. -/
theorem Taking.Solvent.step {w t : Taking} (h : w.Solvent base bs) (hbase : 2 ≤ base)
    (hstep : Borrows base bs w t) : t.Solvent base bs := by
  obtain ⟨hfits, hcovers⟩ := h
  cases hstep with
  | @spared copy found place x hx hle =>
    simp only [Covers] at hfits hcovers
    rw [drop_of_getElem? hx] at hfits
    obtain ⟨hxb, habove⟩ := fits_cons.1 hfits
    rw [value_drop hx, value_drop_getD] at hcovers
    exact ⟨habove, le_above hxb hcovers⟩
  | @asks copy found place x hx hlt =>
    simp only [Covers] at hfits hcovers
    rw [value_drop hx, value_drop_getD] at hcovers
    have habove := lt_above hlt hcovers
    refine ⟨hfits, Nat.lt_add_one place, Nat.lt_of_le_of_lt (Nat.zero_le _) habove, ?_⟩
    rw [Nat.sub_self, weight_zero]
    exact habove
  | @passes copy found place asked h0 =>
    simp only [Covers] at hfits hcovers
    obtain ⟨hplace, hlender, henough⟩ := hcovers
    obtain ⟨k, rfl⟩ := Nat.exists_eq_add_of_le (show place + 1 ≤ asked from hplace)
    -- The top digit that takes the place of the zero pays for asking one place further up.
    have hset := value_drop_set base h0 (base - 1)
    rw [value_drop h0, Nat.zero_add] at hlender
    refine ⟨?_, by simp; omega, ?_, ?_⟩
    · simp only [List.drop_set]
      split
      · exact hfits
      · exact hfits.set (by omega)
    · simp only [List.drop_set_of_lt (Nat.lt_add_one _)]
      exact Nat.pos_of_mul_pos_left hlender
    · simp only [Nat.add_sub_cancel_left, Nat.add_assoc _ k 1, weight_succ] at henough ⊢
      rw [Nat.mul_zero, Nat.add_zero] at hset
      rw [hset]
      have hpay : weight base k * (base - 1) + weight base k = base * weight base k := by
        rw [← Nat.mul_succ, Nat.succ_eq_add_one, Nat.sub_add_cancel (by omega), Nat.mul_comm]
      omega
  | @lends copy found place asked x y hy hx =>
    simp only [Covers] at hfits hcovers
    obtain ⟨hplace, hlender, henough⟩ := hcovers
    obtain ⟨k, rfl⟩ := Nat.exists_eq_add_of_le (show place + 1 ≤ asked from hplace)
    have hset := value_drop_set base hy y
    rw [drop_of_getElem? hx] at hfits
    have habove := (fits_cons.1 hfits).2
    have hy2 : y < base := by
      have := habove.getElem? (i := k) (d := y + 1) (by rwa [List.getElem?_drop])
      omega
    rw [Nat.mul_succ] at hset
    simp only [Nat.add_sub_cancel_left] at henough
    refine ⟨?_, ?_⟩
    · simp only [List.drop_set_of_lt (Nat.lt_add_one place), List.drop_set]
      rw [if_neg (by omega)]
      exact habove.set hy2
    · simp only [Covers, List.drop_set_of_lt (Nat.lt_add_one place)]
      omega

theorem Taking.solvent_start {as : List Nat} (hfits : Fits base as)
    (hle : value base bs ≤ value base as) : (start as).Solvent base bs :=
  ⟨hfits, hle⟩

theorem Taking.Solvent.run {w t : Taking} (h : w.Solvent base bs) (hbase : 2 ≤ base)
    (hrun : ReflTransGen (Borrows base bs) w t) : t.Solvent base bs := by
  induction hrun with
  | refl => exact h
  | tail _ hstep ih => exact ih.step hbase hstep

theorem length_copy_of_run {w t : Taking} (hrun : ReflTransGen (Borrows base bs) w t) :
    t.copy.length = w.copy.length := by
  induction hrun with
  | refl => rfl
  | tail _ hstep ih => rw [length_copy_of_borrows hstep, ih]

/-- The place that is asked stands in the copy. -/
theorem Taking.Solvent.asked_lt {w : Taking} (h : w.Solvent base bs) {asked : Nat}
    (hasked : w.asked = some asked) : asked < w.copy.length := by
  have hcovers := h.covers
  unfold Covers at hcovers
  rw [hasked] at hcovers
  apply Nat.lt_of_not_le
  intro hpast
  simp [List.drop_eq_nil_of_le hpast] at hcovers

/-! ## The work is the difference -/

/-- What the digit has asked for comes from the digits above it. -/
theorem run_of_borrow? {copy found lent : List Nat} {place asked x : Nat}
    (hlent : borrow? base (copy.drop asked) = some lent) (hx : copy[place]? = some x)
    (hlt : place < asked) :
    ReflTransGen (Borrows base bs) ⟨copy, place, found, some asked⟩
      ⟨(copy.take asked ++ lent).set place (x + base), place + 1,
        found ++ [x + base - bs.getD place 0], none⟩ := by
  -- The induction goes up the digits that are asked.
  generalize hrest : copy.drop asked = rest at hlent
  induction rest generalizing copy asked lent with
  | nil => simp [borrow?] at hlent
  | cons d rest ih =>
    obtain ⟨hd, habove⟩ := getElem?_of_drop hrest
    cases d with
    | zero =>
      obtain ⟨above, hup, rfl⟩ := Option.map_eq_some_iff.1 hlent
      have hnext := @ih (copy.set asked (base - 1)) above (asked + 1)
        (by rwa [List.getElem?_set_ne (by omega)]) (by omega)
        (by rw [List.drop_set_of_lt (Nat.lt_add_one asked), habove]) hup
      rw [take_succ_set hd, List.append_assoc] at hnext
      exact .head (.passes hd) hnext
    | succ y =>
      cases hlent
      have hlends : Borrows base bs ⟨copy, place, found, some asked⟩ _ := .lends hd hx
      rw [set_of_getElem? hd, habove] at hlends
      exact .single hlends

/-- What one digit and the digits above it leave. -/
theorem sub?_cons_eq_some {x : Nat} {rest ds : List Nat} (h : sub? base (x :: rest) bs = some ds) :
    (bs.headD 0 ≤ x ∧ ∃ above, sub? base rest bs.tail = some above ∧
        ds = (x - bs.headD 0) :: above) ∨
      x < bs.headD 0 ∧ ∃ lent above, borrow? base rest = some lent ∧
        sub? base lent bs.tail = some above ∧ ds = (x + base - bs.headD 0) :: above := by
  by_cases hlt : x < bs.headD 0
  · cases hlent : borrow? base rest with
    | none =>
      rw [sub?] at h
      simp only [hlt, ↓reduceIte] at h
      split at h <;> simp_all
    | some lent =>
      rw [sub?_of_lt hlt hlent] at h
      obtain ⟨above, habove, rfl⟩ := Option.map_eq_some_iff.1 h
      exact .inr ⟨hlt, lent, above, rfl, habove, rfl⟩
  · rw [sub?_of_ge hlt] at h
    obtain ⟨above, habove, rfl⟩ := Option.map_eq_some_iff.1 h
    exact .inl ⟨Nat.le_of_not_lt hlt, above, habove, rfl⟩

/-- The digits of the difference are those that the work finds. -/
theorem run_of_sub? {copy found ds : List Nat} {place : Nat}
    (h : sub? base (copy.drop place) (bs.drop place) = some ds) :
    ∃ left, ReflTransGen (Borrows base bs) ⟨copy, place, found, none⟩
      ⟨left, place + ds.length, found ++ ds, none⟩ := by
  induction ds generalizing copy found place with
  | nil => exact ⟨copy, by simpa using ReflTransGen.refl⟩
  | cons d above ih =>
    cases hrest : copy.drop place with
    | nil => simp [hrest, sub?] at h
    | cons x rest =>
      obtain ⟨hx, hup⟩ := getElem?_of_drop hrest
      rw [hrest] at h
      have hcases := sub?_cons_eq_some h
      rw [headD_drop, List.tail_drop] at hcases
      rcases hcases with ⟨hle, above', habove, heq⟩ | ⟨hlt, lent, above', hlent, habove, heq⟩
      · cases heq
        rw [← hup] at habove
        obtain ⟨left, hleft⟩ := @ih copy (found ++ [x - bs.getD place 0]) (place + 1) habove
        refine ⟨left, .head (.spared hx hle) ?_⟩
        simpa [Nat.add_assoc, Nat.add_comm 1] using hleft
      · cases heq
        rw [← hup] at hlent
        have hloan : ReflTransGen (Borrows base bs) ⟨copy, place, found, some (place + 1)⟩ _ :=
          run_of_borrow? hlent hx (Nat.lt_add_one place)
        have hplace := lt_length_of_getElem? hx
        have hdrop : ((copy.take (place + 1) ++ lent).set place (x + base)).drop (place + 1) =
            lent := by
          rw [List.drop_set_of_lt (Nat.lt_add_one place), List.drop_left' (by simp; omega)]
        rw [← hdrop] at habove
        obtain ⟨left, hleft⟩ := @ih _ (found ++ [x + base - bs.getD place 0]) (place + 1) habove
        refine ⟨left, .head (.asks hx hlt) (hloan.trans ?_)⟩
        simpa [Nat.add_assoc, Nat.add_comm 1] using hleft

end

/-! ## The law -/

/-- From a number at least as large, taking `bs` away comes to an end, in any base: the
work finds as many digits as the first number has, all of them fit the base, and they
stand for the difference. On the way every place that is asked for a loan stands in the
working copy, and what is left of the copy covers what is left to take away. -/
theorem a_loan_is_found_in_the_copy {base : Nat} {as bs : List Nat} (hbase : 2 ≤ base)
    (has : ∀ d ∈ as, d < base) (hbs : ∀ d ∈ bs, d < base)
    (hle : value base bs ≤ value base as) :
    ∃ ds left, sub? base as bs = some ds ∧
      Ends (Borrows base bs) (.start as) ⟨left, as.length, ds, none⟩ ∧
      (ds.length = as.length ∧ (∀ d ∈ ds, d < base) ∧
        value base ds = value base as - value base bs) ∧
      ∀ w, ReflTransGen (Borrows base bs) (.start as) w →
        w.copy.length = as.length ∧ (∀ asked ∈ w.asked, asked < as.length) ∧
          w.Covers base bs := by
  obtain ⟨ds, hds, hlength, hfits, hvalue⟩ := sub?_eq_some hbase has hbs hle
  obtain ⟨left, hrun⟩ := @run_of_sub? base bs as [] ds 0 hds
  rw [Nat.zero_add, hlength] at hrun
  refine ⟨ds, left, hds, ends_of_run (borrows_unique base bs) hrun ?_,
    ⟨hlength, hfits, by omega⟩, fun w hw => ?_⟩
  · have hleft : left.length = as.length := length_copy_of_run hrun
    intro t ht
    cases ht with
    | spared hx _ | asks hx _ =>
      have := lt_length_of_getElem? hx
      omega
  · have hcopy : w.copy.length = as.length := length_copy_of_run hw
    have hsolvent := (Taking.solvent_start has hle).run hbase hw
    refine ⟨hcopy, fun asked hasked => ?_, hsolvent.covers⟩
    rw [← hcopy]
    exact hsolvent.asked_lt hasked

/-- In base sixteen a five is taken from a number whose lowest digit is a three. The
loan comes from the fourth place, past two zeros. -/
theorem a_five_borrowed_past_two_zeros :
    (∀ d ∈ [3, 0, 0, 1], d < 16) ∧ (∀ d ∈ [5], d < 16) ∧
      value 16 [5] ≤ value 16 [3, 0, 0, 1] ∧
      sub? 16 [3, 0, 0, 1] [5] = some [14, 15, 15, 0] ∧
      ∃ left, Ends (Borrows 16 [5]) (.start [3, 0, 0, 1]) ⟨left, 4, [14, 15, 15, 0], none⟩ := by
  have hdigits : ∀ d ∈ [3, 0, 0, 1], d < 16 := by decide
  have hfive : ∀ d ∈ [5], d < 16 := by decide
  have hle : value 16 [5] ≤ value 16 [3, 0, 0, 1] := by decide
  have hsub : sub? 16 [3, 0, 0, 1] [5] = some [14, 15, 15, 0] := by simp [sub?, borrow?]
  obtain ⟨ds, left, hds, hends, _⟩ :=
    a_loan_is_found_in_the_copy (by decide) hdigits hfive hle
  cases hds.symm.trans hsub
  exact ⟨hdigits, hfive, hle, hsub, left, hends⟩

end Abacus.Digits
