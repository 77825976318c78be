-- The laws of canonical form. Whatever a function gives back is in canonical
-- form, in base ten where arithmetic or an expression gave it. In one base a
-- number has one canonical form, so two lists of digits build the same numeral
-- exactly when they stand for the same number.
import Abacus.Numeral.Radix
import Abacus.Expression.Postfix

namespace Abacus

/-! ## Outcomes in base ten -/

/-- The outcome is an error, or a numeral held in base ten. -/
def InTen (outcome : Except Error Numeral) : Prop := ∀ a, outcome = .ok a → a.base = 10

theorem inTen_error (e : Error) : InTen (.error e) := by
  intro a h
  cases h

theorem inTen_ok (d : Decimal) : InTen (.ok d.toNumeral) := by
  intro a h
  cases h
  exact d.base_eq

theorem inTen_bind {α : Type} {x : Except Error α} {f : α → Except Error Numeral}
    (h : ∀ a, x = .ok a → InTen (f a)) : InTen (x >>= f) := by
  intro b hb
  obtain ⟨a, ha, hf⟩ := exists_of_bind_ok hb
  exact h a ha b hf

namespace Numeral

theorem inTen_ofText (s : String) : InTen (ofText s) := by
  unfold ofText
  apply inTen_bind
  intro d _
  exact inTen_ok d

theorem inTen_ofTextDatum (d : Datum) : InTen (ofTextDatum d) := by
  cases d with
  | text s => exact inTen_ofText s
  | _ => exact inTen_error _

theorem inTen_divide (a b : Numeral) : InTen (a.divide b) := by
  unfold divide
  split
  · exact inTen_error _
  · exact inTen_ok _

theorem base_divMod {a b q r : Numeral} (h : a.divMod b = .ok (q, r)) :
    q.base = 10 ∧ r.base = 10 := by
  unfold divMod at h
  split at h
  · cases h
  · cases h
    exact ⟨Decimal.base_eq _, Decimal.base_eq _⟩

theorem inTen_mod (a b : Numeral) : InTen (a.mod b) := by
  unfold mod
  apply inTen_bind
  intro _ _
  apply inTen_bind
  intro p hp r hr
  cases hr
  exact (base_divMod hp).2

theorem inTen_pow (a : Numeral) (n : Int) : InTen (.ok (a.pow n)) := by
  unfold pow
  split
  · exact inTen_ok Decimal.zero
  · exact inTen_ok _

theorem inTen_powNumeral (a e : Numeral) : InTen (a.powNumeral e) := by
  unfold powNumeral
  apply inTen_bind
  intro n _
  exact inTen_pow a n

theorem inTen_powDatum (a : Numeral) (d : Datum) : InTen (a.powDatum d) := by
  have hwhole : InTen (do let n ← d.toInt; return a.pow n) := inTen_bind fun n _ => inTen_pow a n
  cases d with
  | numeral e => exact inTen_powNumeral a e
  | _ => exact hwhole

theorem inTen_root (a : Numeral) : InTen a.root := by
  unfold root
  apply inTen_bind
  intro b _
  exact inTen_ok _

theorem inTen_invert (f : Numeral → Except Error Numeral) (target : Numeral)
    (high : Option Numeral) : InTen (invert f target high) := by
  unfold invert
  apply inTen_bind
  intro b _
  apply inTen_bind
  intro found _
  exact inTen_ok found

end Numeral

theorem Operator.inTen_apply (op : Operator) (a b : Numeral) : InTen (op.apply a b) := by
  cases op with
  | add => exact inTen_ok _
  | subtract => exact inTen_ok _
  | multiply => exact inTen_ok _
  | divide => exact a.inTen_divide b
  | mod => exact a.inTen_mod b
  | power => exact a.inTen_powNumeral b

namespace Expression

/-- Values are read or worked out, so all of them are held in base ten. -/
theorem base_run {whole ts : List Token} {values out : List Numeral}
    (h : run whole values ts = .ok out) (hv : ∀ v ∈ values, v.base = 10) :
    ∀ v ∈ out, v.base = 10 := by
  fun_induction run whole values ts generalizing out with
  | case1 values =>
    cases h
    exact hv
  | case2 values s rest ih =>
    obtain ⟨a, ha, hrest⟩ := exists_of_bind_ok h
    exact ih a hrest (List.forall_mem_cons.2 ⟨Numeral.inTen_ofText s a ha, hv⟩)
  | case3 | case4 | case6 | case7 => cases h
  | case5 op rest right left below ih =>
    obtain ⟨a, ha, hrest⟩ := exists_of_bind_ok h
    have hbelow := (List.forall_mem_cons.1 (List.forall_mem_cons.1 hv).2).2
    exact ih a hrest (List.forall_mem_cons.2 ⟨op.inTen_apply left right a ha, hbelow⟩)

theorem inTen_postfixValue (ts : List Token) : InTen (postfixValue ts) := by
  intro a ha
  exact base_run (postfixValue_eq_ok_iff.1 ha) (by simp) a (List.mem_singleton_self a)

theorem inTen_infixValue (ts : List Token) : InTen (infixValue ts) := by
  unfold infixValue
  apply inTen_bind
  intro ordered _
  exact inTen_postfixValue ordered

end Expression

namespace Numeral

/-! ## Results -/

/-- The numeral is a result of one of the functions, and the base is the one
that the function promises, if it promises any. -/
inductive Returned : Numeral → Option Nat → Prop
  | ofText {d : Datum} {a : Numeral} : ofTextDatum d = .ok a → Returned a (some 10)
  | ofInt {d : Datum} {a : Numeral} : ofIntDatum d = .ok a → Returned a none
  | ofDigits {digits base negative : Datum} {a : Numeral} :
      ofDigitData digits base negative = .ok a → Returned a none
  | ofDatum {d : Datum} {a : Numeral} : Numeral.ofDatum d = .ok a → Returned a none
  | neg (a : Numeral) : Returned a.neg (some a.base)
  | abs (a : Numeral) : Returned a.abs (some a.base)
  | inDecimal (a : Numeral) : Returned a.inDecimal (some 10)
  | half (a : Numeral) : Returned a.half (some 10)
  | add (a b : Numeral) : Returned (a.add b) (some 10)
  | sub (a b : Numeral) : Returned (a.sub b) (some 10)
  | mul (a b : Numeral) : Returned (a.mul b) (some 10)
  | divide {a b q : Numeral} : a.divide b = .ok q → Returned q (some 10)
  | quotient {a b q r : Numeral} : a.divMod b = .ok (q, r) → Returned q (some 10)
  | remainder {a b q r : Numeral} : a.divMod b = .ok (q, r) → Returned r (some 10)
  | mod {a b r : Numeral} : a.mod b = .ok r → Returned r (some 10)
  | pow {a p : Numeral} {exponent : Datum} : a.powDatum exponent = .ok p → Returned p (some 10)
  | root {a r : Numeral} : a.root = .ok r → Returned r (some 10)
  | invert {f : Numeral → Except Error Numeral} {target x : Numeral} {high : Option Numeral} :
      invert f target high = .ok x → Returned x (some 10)
  | convert {a w : Numeral} {base : Datum} : a.convert base = .ok w → Returned w none
  | postfixValue {d : Datum} {a : Numeral} :
      d.tokens >>= Expression.postfixValue = .ok a → Returned a (some 10)
  | infixValue {d : Datum} {a : Numeral} :
      d.tokens >>= Expression.infixValue = .ok a → Returned a (some 10)

/-- A promised base is the base of the result. -/
theorem Returned.base_eq {a : Numeral} {base : Nat} (h : Returned a (some base)) :
    a.base = base := by
  cases h with
  | neg _ | abs _ => rfl
  | inDecimal _ | half _ | add _ _ | sub _ _ | mul _ _ => exact Decimal.base_eq _
  | ofText h => exact inTen_ofTextDatum _ a h
  | divide h => exact inTen_divide _ _ a h
  | quotient h => exact (base_divMod h).1
  | remainder h => exact (base_divMod h).2
  | mod h => exact inTen_mod _ _ a h
  | pow h => exact inTen_powDatum _ _ a h
  | root h => exact inTen_root _ a h
  | invert h => exact inTen_invert _ _ _ a h
  | postfixValue h =>
    obtain ⟨ts, _, hts⟩ := exists_of_bind_ok h
    exact Expression.inTen_postfixValue ts a hts
  | infixValue h =>
    obtain ⟨ts, _, hts⟩ := exists_of_bind_ok h
    exact Expression.inTen_infixValue ts a hts

/-! ## Canonical form -/

/-- The base is two or more, there is a digit, every digit is in range, a zero
stands at the top of zero alone, and zero has no minus. -/
structure Canonical (base : Nat) (digits : List Nat) (negative : Bool) : Prop where
  two_le_base : 2 ≤ base
  digit : digits ≠ []
  range : ∀ d ∈ digits, d < base
  top : digits.getLast? = some 0 → digits = [0]
  sign : Digits.value base digits = 0 → negative = false

theorem canonical (a : Numeral) : Canonical a.base a.digits a.negative :=
  ⟨a.two_le_base, a.trimmed.1, a.fits, a.trimmed.2, not_negative_of_magnitude⟩

/-- In one base the number decides digits and sign. -/
theorem toInt_eq_iff {a b : Numeral} (h : a.base = b.base) :
    a.toInt = b.toInt ↔ a.digits = b.digits ∧ a.negative = b.negative := by
  constructor
  · intro hab
    rw [eq_of_toInt h hab]
    exact ⟨rfl, rfl⟩
  · rintro ⟨hdigits, hnegative⟩
    unfold toInt magnitude
    rw [h, hdigits, hnegative]

/-- The numeral of `n` as arithmetic gives it back: canonical, in base ten, and
with a minus exactly where `n` is below zero. -/
structure Exact (n : Int) (a : Numeral) : Prop where
  number : a.toInt = n
  inTen : a.base = 10
  canonical : Canonical a.base a.digits a.negative
  sign : a.negative = true ↔ n < 0

theorem exact_of_toInt {d : Decimal} {n : Int} (h : d.toInt = n) : Exact n d.toNumeral := by
  subst h
  exact ⟨rfl, d.base_eq, canonical d.toNumeral, negative_iff⟩

/-- An integer has one such numeral. -/
theorem Exact.eq {n : Int} {a b : Numeral} (ha : Exact n a) (hb : Exact n b) : a = b :=
  eq_of_toInt (ha.inTen.trans hb.inTen.symm) (ha.number.trans hb.number.symm)

/-! ## Numerals from lists of digits -/

/-- Digits as a caller lists them. -/
def listed (ds : List Nat) : Datum := .list (ds.map fun d : Nat => .integer d)

theorem digitIn_integer {base d : Nat} (h : d < base) :
    Datum.digitIn base (.integer d) = .ok ⟨d, h⟩ := by
  unfold Datum.digitIn
  exact dif_pos ⟨Int.natCast_nonneg d, Int.ofNat_lt.2 h⟩

theorem mapM_digitIn {base : Nat} {ds : List Nat} (h : Digits.Fits base ds) :
    ∃ fs : List (Fin base), (ds.map fun d : Nat => Datum.integer d).mapM (Datum.digitIn base) =
      .ok fs ∧ fs.map Fin.val = ds := by
  induction ds with
  | nil => exact ⟨[], rfl, rfl⟩
  | cons d ds ih =>
    obtain ⟨hd, hds⟩ := Digits.fits_cons.1 h
    obtain ⟨fs, hfs, hval⟩ := ih hds
    refine ⟨⟨d, hd⟩ :: fs, ?_, by rw [List.map_cons, hval]⟩
    rw [List.map_cons, List.mapM_cons, digitIn_integer hd, hfs]
    rfl

/-- Digits in range are taken, with any zeros at the top. -/
theorem ofDigitData_listed {base : Nat} {ds : List Nat} (hb : 2 ≤ base)
    (h : Digits.Fits base ds) (negative : Datum) :
    ofDigitData (listed ds) (.integer base) negative =
      .ok (ofDigits base ds negative.isTrue hb h) := by
  obtain ⟨fs, hfs, hval⟩ := mapM_digitIn h
  have hbase : Datum.digitBase (.integer base) = .ok ⟨base, hb⟩ := by
    unfold Datum.digitBase
    exact dif_pos (Int.ofNat_le.2 hb)
  unfold ofDigitData listed Datum.items
  rw [hbase]
  dsimp only [bind, Except.bind]
  rw [hfs]
  subst hval
  rfl

theorem ofDigits_eq_iff {base : Nat} {as bs : List Nat} {negative : Bool} (hb : 2 ≤ base)
    (ha : Digits.Fits base as) (hbs : Digits.Fits base bs) :
    ofDigits base as negative hb ha = ofDigits base bs negative hb hbs ↔
      Digits.value base as = Digits.value base bs := by
  constructor
  · intro h
    have hm := congrArg magnitude h
    rwa [magnitude_ofDigits, magnitude_ofDigits] at hm
  · intro h
    have hsame : (ofDigits base as negative hb ha).toInt =
        (ofDigits base bs negative hb hbs).toInt := by
      rw [toInt_ofDigits, toInt_ofDigits, h]
    exact eq_of_toInt rfl hsame

/-! ## The laws -/

/-- What a function gives back is in canonical form, and in the base that the
function promises. Numerals of one base stand for one integer exactly when
their digits and their signs are the same, and digits in range, with any zeros
at the top, build the same numeral exactly when they stand for one number. -/
theorem one_canonical_form_for_each_number :
    (∀ a promised, Returned a promised →
        Canonical a.base a.digits a.negative ∧ ∀ base ∈ promised, a.base = base) ∧
      (∀ a b : Numeral, a.base = b.base →
        (a.toInt = b.toInt ↔ a.digits = b.digits ∧ a.negative = b.negative)) ∧
      ∀ (base : Nat) (as bs : List Nat) (negative : Datum), 2 ≤ base →
        (∀ d ∈ as, d < base) → (∀ d ∈ bs, d < base) →
        ∃ a b, ofDigitData (listed as) (.integer base) negative = .ok a ∧
          ofDigitData (listed bs) (.integer base) negative = .ok b ∧
          (a = b ↔ Digits.value base as = Digits.value base bs) := by
  refine ⟨?_, fun a b => toInt_eq_iff, ?_⟩
  · intro a promised h
    refine ⟨a.canonical, ?_⟩
    rintro base rfl
    exact h.base_eq
  · intro base as bs negative hb ha hbs
    exact ⟨_, _, ofDigitData_listed hb ha negative, ofDigitData_listed hb hbs negative,
      ofDigits_eq_iff hb ha hbs⟩

/-- Minus zero with spare zeros, and digits in base sixteen with spare zeros
and with their order changed. -/
theorem minus_zero_and_spare_zeros :
    let zero : Numeral := (Decimal.ofTopDigits [0, 0] true).toNumeral
    (Returned zero (some 10) ∧ Canonical zero.base zero.digits zero.negative ∧ zero.base = 10) ∧
      (ofDigitData (listed [15, 1, 0, 0]) (.integer 16) (.truth true) =
        ofDigitData (listed [15, 1]) (.integer 16) (.truth true)) ∧
      ofDigitData (listed [15, 1]) (.integer 16) (.truth true) ≠
        ofDigitData (listed [1, 15]) (.integer 16) (.truth true) := by
  intro zero
  have hreturned : Returned zero (some 10) :=
    @Returned.ofText (.text "-00") _ rfl
  obtain ⟨hform, _, hbuilt⟩ := one_canonical_form_for_each_number
  obtain ⟨a, b, ha, hb, hsame⟩ := hbuilt 16 [15, 1, 0, 0] [15, 1] (.truth true) (by decide)
    (by decide) (by decide)
  obtain ⟨c, d, hc, hd, hother⟩ := hbuilt 16 [15, 1] [1, 15] (.truth true) (by decide)
    (by decide) (by decide)
  refine ⟨⟨hreturned, (hform _ _ hreturned).1, (hform _ _ hreturned).2 10 rfl⟩, ?_, ?_⟩
  · have hab : a = b := hsame.2 (by decide)
    exact ha.trans (hab ▸ hb.symm)
  · intro h
    have hcd : c = d := Except.ok.inj (hc.symm.trans (h.trans hd))
    exact absurd (hother.1 hcd) (by decide)

end Numeral

end Abacus
