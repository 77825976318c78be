-- The laws of decimal text. Which texts spell a number is said here from their
-- characters alone: blanks at both ends, at most one minus, and ASCII digits,
-- zeros at the front included. Exactly these texts are read. Of the many texts
-- that spell a number one is plain, and that one is written.
import Abacus.Numeral.Read

namespace Abacus

namespace Text

/-! ## Spelled numbers -/

/-- ASCII digits, at least one. -/
def Figures (cs : List Char) : Prop := cs ≠ [] ∧ ∀ c ∈ cs, c.isDigit = true

/-- The characters are digits that stand for the integer, or a minus before
digits that stand for its opposite. -/
inductive Signed : List Char → Int → Prop
  | bare {cs : List Char} : Figures cs → Signed cs (Nat.ofDigitChars 10 cs 0)
  | minus {cs : List Char} : Figures cs → Signed ('-' :: cs) (-(Nat.ofDigitChars 10 cs 0 : Int))

/-- The text spells the integer, with blanks at its ends or without. -/
def Spells (s : String) (n : Int) : Prop :=
  ∃ left body right : List Char, (∀ c ∈ left, isBlank c = true) ∧
    (∀ c ∈ right, isBlank c = true) ∧ s.toList = left ++ body ++ right ∧ Signed body n

/-- Zero is a single digit. The digits of any other number start above zero,
and only these may follow a minus. -/
inductive Plain : List Char → Prop
  | zero : Plain ['0']
  | bare {cs : List Char} : Figures cs → cs.head? ≠ some '0' → Plain cs
  | minus {cs : List Char} : Figures cs → cs.head? ≠ some '0' → Plain ('-' :: cs)

theorem figures_toDigits (m : Nat) : Figures (Nat.toDigits 10 m) :=
  ⟨Nat.toDigits_ne_nil, fun _ hc => Nat.isDigit_of_mem_toDigits (by decide) (by decide) hc⟩

/-- The text of an integer spells it. -/
theorem spells_toString (n : Int) : Spells (toString n) n := by
  have hvalue : ∀ m, Nat.ofDigitChars 10 (Nat.toDigits 10 m) 0 = m := fun m =>
    Nat.ofDigitChars_ten_toDigits
  refine ⟨[], (toString n).toList, [], by simp, by simp, by simp, ?_⟩
  rw [Int.toString_eq_repr]
  cases n with
  | ofNat m =>
    have h := Signed.bare (figures_toDigits m)
    rw [hvalue] at h
    rw [Int.repr, Nat.toList_repr]
    exact h
  | negSucc m =>
    have h := Signed.minus (figures_toDigits (m + 1))
    rw [hvalue] at h
    rw [Int.repr, String.toList_append, Nat.toList_repr]
    exact h

end Text

namespace Decimal

open Text (Figures Signed Spells Plain)

/-! ## Figures and digits -/

theorem figures_digitChar {ds : List (Fin 10)} (h : ds ≠ []) :
    Figures (ds.map fun d : Fin 10 => Nat.digitChar d) := by
  have hd : ∀ d : Fin 10, (Nat.digitChar d).isDigit = true := by decide
  refine ⟨by simpa using h, ?_⟩
  intro c hc
  obtain ⟨d, _, rfl⟩ := List.mem_map.1 hc
  exact hd d

theorem exists_digit {c : Char} (h : c.isDigit = true) : ∃ d : Fin 10, Nat.digitChar d = c := by
  have hd : digit? c = some ⟨c.toNat - '0'.toNat, _⟩ := dif_pos (Char.isDigit_iff_toNat.1 h)
  exact ⟨_, digit?_eq_some hd⟩

/-- ASCII digits are the characters of some digits. -/
theorem exists_digits {cs : List Char} (h : ∀ c ∈ cs, c.isDigit = true) :
    ∃ ds : List (Fin 10), (ds.map fun d : Fin 10 => Nat.digitChar d) = cs := by
  induction cs with
  | nil => exact ⟨[], rfl⟩
  | cons c cs ih =>
    obtain ⟨hc, hcs⟩ := List.forall_mem_cons.1 h
    obtain ⟨d, hd⟩ := exists_digit hc
    obtain ⟨ds, hds⟩ := ih hcs
    exact ⟨d :: ds, by rw [List.map_cons, hd, hds]⟩

theorem exists_digits_of_figures {cs : List Char} (h : Figures cs) :
    ∃ ds : List (Fin 10), ds ≠ [] ∧ (ds.map fun d : Fin 10 => Nat.digitChar d) = cs := by
  obtain ⟨hne, hall⟩ := h
  obtain ⟨ds, rfl⟩ := exists_digits hall
  exact ⟨ds, by simpa using hne, rfl⟩

/-- Summed from the top down or from the bottom up, digits give one number. -/
theorem ofDigitChars_digitChar (ds : List (Fin 10)) :
    Nat.ofDigitChars 10 (ds.map fun d : Fin 10 => Nat.digitChar d) 0 =
      Digits.value 10 (ds.reverse.map Fin.val) := by
  have hd : ∀ d : Fin 10, (Nat.digitChar d).toNat - '0'.toNat = d := by decide
  unfold Nat.ofDigitChars
  rw [List.foldl_map, List.foldl_eq_foldr_reverse]
  induction ds.reverse with
  | nil => rfl
  | cons e es ih => rw [List.foldr_cons, ih, hd, List.map_cons, Digits.value_cons, Nat.add_comm]

/-- Signed figures are written with digits, and stand for their number. -/
theorem signed_iff {cs : List Char} {n : Int} :
    Signed cs n ↔ ∃ (ds : List (Fin 10)) (negative : Bool), ds ≠ [] ∧
      cs = written ds negative ∧ n = (ofTopDigits ds negative).toInt := by
  unfold ofTopDigits
  constructor
  · intro h
    cases h with
    | bare h =>
      obtain ⟨ds, hne, rfl⟩ := exists_digits_of_figures h
      exact ⟨ds, false, hne, rfl, by rw [toInt_ofDigits, ofDigitChars_digitChar]; rfl⟩
    | minus h =>
      obtain ⟨ds, hne, rfl⟩ := exists_digits_of_figures h
      exact ⟨ds, true, hne, rfl, by rw [toInt_ofDigits, ofDigitChars_digitChar]; rfl⟩
  · rintro ⟨ds, negative, hne, rfl, rfl⟩
    rw [toInt_ofDigits, ← ofDigitChars_digitChar]
    cases negative
    · exact .bare (figures_digitChar hne)
    · exact .minus (figures_digitChar hne)

/-! ## Reading -/

/-- Exactly the texts that spell a number are read, and as that number. -/
theorem ofText_iff {s : String} {n : Int} : ofText s = .ok (ofInt n) ↔ Spells s n := by
  constructor
  · intro h
    obtain ⟨ds, negative, hne, htrim, ha⟩ := written_of_ofText h
    obtain ⟨left, right, hl, hr, hs⟩ := Text.exists_blanks_around s.toList
    refine ⟨left, _, right, hl, hr, hs, signed_iff.2 ⟨ds, negative, hne, htrim, ?_⟩⟩
    rw [← ha, toInt_ofInt]
  · rintro ⟨left, body, right, hl, hr, hs, hbody⟩
    obtain ⟨ds, negative, hne, rfl, rfl⟩ := signed_iff.1 hbody
    have htrim : Text.trimBlanks s.toList = written ds negative := by
      rw [hs, Text.trimBlanks_between hl hr fun c hc => isBlank_of_mem_written hc]
    rw [ofText_of_written hne htrim]
    exact congrArg Except.ok (eq_of_toInt (toInt_ofInt _).symm)

/-! ## Writing -/

/-- Digits with no zero at the top are kept as they are. -/
theorem chars_ofTopDigits {ds : List (Fin 10)} {negative : Bool} (hne : ds ≠ [])
    (h : ds.head? ≠ some 0) : (ofTopDigits ds negative).chars = written ds negative := by
  have htop : (ds.reverse.map Fin.val).getLast? ≠ some 0 := by
    rw [List.getLast?_map, List.getLast?_reverse]
    intro h0
    obtain ⟨d, hd, hd0⟩ := Option.map_eq_some_iff.1 h0
    exact h (hd.trans (congrArg some (Fin.ext hd0)))
  have htrim : Digits.trim (ds.reverse.map Fin.val) = ds.reverse.map Fin.val :=
    Digits.Trimmed.trim_eq ⟨by simpa using hne, fun h0 => absurd h0 htop⟩
  have hzero : (ds.reverse.map Fin.val != [0]) = true := by
    rw [bne_iff_ne]
    intro h0
    exact htop (by rw [h0]; rfl)
  have hnegative : (ofTopDigits ds negative).negative = negative := by
    show (negative && Digits.trim (ds.reverse.map Fin.val) != [0]) = negative
    rw [htrim, hzero, Bool.and_true]
  have hdigits : (ofTopDigits ds negative).digits = ds.reverse.map Fin.val := htrim
  unfold chars written
  rw [hnegative, hdigits, ← List.map_reverse, List.reverse_reverse, List.map_map]
  rfl

/-- Only zero has a zero at the top. -/
theorem head_topDigits {a : Decimal} (h : a.digits ≠ [0]) : a.topDigits.head? ≠ some 0 := by
  intro h0
  have hmap := congrArg List.head? (map_topDigits a id)
  rw [List.head?_map, h0, List.map_id, List.head?_reverse] at hmap
  exact h (a.trimmed.2 hmap.symm)

theorem plain_chars (a : Decimal) : Plain a.chars := by
  by_cases h : a.digits = [0]
  · have hn := a.zero_nonnegative h
    unfold chars
    rw [h, hn]
    exact .zero
  · have hhead : (a.topDigits.map fun d : Fin 10 => Nat.digitChar d).head? ≠ some '0' := by
      have hd : ∀ d : Fin 10, Nat.digitChar d = '0' → d = 0 := by decide
      rw [List.head?_map]
      intro h0
      obtain ⟨d, hd', hd0⟩ := Option.map_eq_some_iff.1 h0
      exact head_topDigits h (hd'.trans (congrArg some (hd d hd0)))
    have hfigures := figures_digitChar a.topDigits_ne_nil
    rw [chars_eq]
    cases a.negative
    · exact .bare hfigures hhead
    · exact .minus hfigures hhead

/-- Plain characters are those that their number is written with. -/
theorem chars_of_plain {cs : List Char} (h : Plain cs) :
    ∃ (ds : List (Fin 10)) (negative : Bool), ds ≠ [] ∧ cs = written ds negative ∧
      (ofTopDigits ds negative).chars = cs := by
  have hhead : ∀ ds : List (Fin 10),
      (ds.map fun d : Fin 10 => Nat.digitChar d).head? ≠ some '0' → ds.head? ≠ some 0 := by
    intro ds h h0
    exact h (by rw [List.head?_map, h0]; rfl)
  cases h with
  | zero => exact ⟨[0], false, by simp, rfl, rfl⟩
  | bare h h0 =>
    obtain ⟨ds, hne, rfl⟩ := exists_digits_of_figures h
    exact ⟨ds, false, hne, rfl, chars_ofTopDigits hne (hhead ds h0)⟩
  | minus h h0 =>
    obtain ⟨ds, hne, rfl⟩ := exists_digits_of_figures h
    exact ⟨ds, true, hne, rfl, chars_ofTopDigits hne (hhead ds h0)⟩

/-- A plain text is read as a number that is written in the same way. -/
theorem ofText_of_plain {s : String} (h : Plain s.toList) :
    ∃ a : Decimal, ofText s = .ok a ∧ a.text = s := by
  obtain ⟨ds, negative, hne, hs, hchars⟩ := chars_of_plain h
  refine ⟨ofTopDigits ds negative, ofText_of_written hne ?_, ?_⟩
  · rw [hs, Text.trimBlanks_eq_self fun c hc => isBlank_of_mem_written hc]
  · rw [text, hchars, String.ofList_toList]

end Decimal

namespace Numeral

open Text (Spells Plain)

theorem ofText_eq_map (s : String) : ofText s = (Decimal.ofText s).map Decimal.toNumeral := by
  unfold ofText
  cases Decimal.ofText s <;> rfl

/-- Exactly the texts that spell an integer are read as a numeral of it. -/
theorem exists_ofText_iff {s : String} {n : Int} :
    (∃ a, ofText s = .ok a ∧ a.toInt = n) ↔ Spells s n := by
  rw [ofText_eq_map, ← Decimal.ofText_iff]
  constructor
  · rintro ⟨a, ha, rfl⟩
    cases h : Decimal.ofText s with
    | error e =>
      rw [h] at ha
      cases ha
    | ok d =>
      rw [h] at ha
      cases ha
      exact congrArg Except.ok (Decimal.eq_of_toInt (Decimal.toInt_ofInt _).symm)
  · intro h
    rw [h]
    exact ⟨_, rfl, Decimal.toInt_ofInt n⟩

theorem kind_of_ofText {s : String} {e : Error} (h : ofText s = .error e) : e.kind = .format := by
  rw [ofText_eq_map] at h
  cases hd : Decimal.ofText s with
  | error f =>
    rw [hd] at h
    cases h
    exact Decimal.kind_of_ofText hd
  | ok d =>
    rw [hd] at h
    cases h

/-- What is written of a numeral reads back as the same number in base ten. -/
theorem ofText_text (a : Numeral) : ofText a.text = .ok a.inDecimal := by
  rw [ofText_eq_map, text, Decimal.ofText_text]
  rfl

/-! ## The laws -/

/-- Reading takes the texts that spell a number and no others, and gives the
number that they spell. Of every numeral, whatever its base, the plain text is
written, which reads back as the number in base ten; and every plain text is
what is written of the number that it is read as. -/
theorem reading_and_writing_agree :
    (∀ s n, (∃ a, ofText s = .ok a ∧ a.toInt = n) ↔ Spells s n) ∧
      (∀ s, (¬ ∃ n, Spells s n) → ∃ e, ofText s = .error e ∧ e.kind = .format) ∧
      (∀ a : Numeral, Plain a.text.toList ∧ Spells a.text a.toInt ∧
        ofText a.text = .ok a.inDecimal) ∧
      ∀ s : String, Plain s.toList → ∃ a, ofText s = .ok a ∧ a.text = s := by
  refine ⟨fun s n => exists_ofText_iff, ?_, ?_, ?_⟩
  · intro s hs
    cases h : ofText s with
    | error e => exact ⟨e, rfl, kind_of_ofText h⟩
    | ok a => exact absurd ⟨_, exists_ofText_iff.1 ⟨a, h, rfl⟩⟩ hs
  · intro a
    refine ⟨?_, exists_ofText_iff.1 ⟨_, ofText_text a, toInt_inDecimal a⟩, ofText_text a⟩
    rw [text, Decimal.text, String.toList_ofList]
    exact Decimal.plain_chars a.toDecimal
  · intro s hs
    obtain ⟨a, ha, htext⟩ := Decimal.ofText_of_plain hs
    refine ⟨a.toNumeral, by rw [ofText_eq_map, ha]; rfl, ?_⟩
    rw [text, toDecimal_toNumeral, htext]

/-- Minus seven between blanks that are not ASCII, a seven that is not ASCII,
and a plain text. -/
theorem minus_seven_between_wide_blanks :
    (∃ a, ofText "\u00a0-007\u2003" = .ok a ∧ a.toInt = -7) ∧
      (∃ e, ofText "\u0667" = .error e ∧ e.kind = .format) ∧
      ∃ a, ofText "-120" = .ok a ∧ a.text = "-120" := by
  have hspells : Spells "\u00a0-007\u2003" (-7) :=
    ⟨['\u00a0'], ['-', '0', '0', '7'], ['\u2003'], List.all_eq_true.1 rfl,
      List.all_eq_true.1 rfl, rfl, .minus ⟨by decide, List.all_eq_true.1 rfl⟩⟩
  have hnone : ¬ ∃ n, Spells "\u0667" n := by
    rintro ⟨n, h⟩
    obtain ⟨a, ha, _⟩ := exists_ofText_iff.2 h
    cases ha
  have hplain : Plain "-120".toList :=
    .minus ⟨by decide, List.all_eq_true.1 rfl⟩ (by decide)
  obtain ⟨hread, hrefused, _, hwritten⟩ := reading_and_writing_agree
  exact ⟨(hread _ _).2 hspells, hrefused _ hnone, hwritten _ hplain⟩

end Numeral

end Abacus
