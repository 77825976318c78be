-- Decimals read from text. A text is a numeral when blanks at both ends and
-- one leading minus leave nothing but ASCII digits, and at least one. What is
-- written as text reads back as the same decimal.
import Abacus.Error

namespace Abacus

/-- The characters after a leading minus. -/
def unsigned : List Char → List Char
  | '-' :: cs => cs
  | cs => cs

namespace Decimal

/-- Reads a text: blanks at both ends, an optional minus, ASCII digits. -/
def ofText (s : String) : Except Error Decimal :=
  let cs := Text.trimBlanks s.toList
  if cs.isEmpty then .error (.emptyNumeral s)
  else if (unsigned cs).isEmpty then .error (.noDigits s)
  else
    match digits? (unsigned cs) with
    | none => .error (.nonDigit s)
    | some ds => .ok (ofTopDigits ds (cs.head? == some '-'))

/-! ## What digits are written with -/

/-- The characters of digits, the top digit first, after a minus or without. -/
def written (ds : List (Fin 10)) (negative : Bool) : List Char :=
  (if negative then ['-'] else []) ++ ds.map fun d : Fin 10 => Nat.digitChar d

theorem digit?_eq_some {c : Char} {d : Fin 10} (h : digit? c = some d) : Nat.digitChar d = c := by
  have hd : ∀ d : Fin 10, (Nat.digitChar d).toNat = '0'.toNat + d := by decide
  unfold digit? at h
  split at h
  · rename_i hc
    cases h
    rw [← Char.toNat_inj, hd]
    exact Nat.add_sub_cancel' hc.1
  · cases h

/-- Digits are read from their own characters and from no others. -/
theorem digits?_eq_some {cs : List Char} {ds : List (Fin 10)} (h : digits? cs = some ds) :
    (ds.map fun d : Fin 10 => Nat.digitChar d) = cs := by
  fun_induction digits? cs generalizing ds with
  | case1 => cases h; rfl
  | case2 c cs d es hes hd ih =>
    cases h
    rw [List.map_cons, digit?_eq_some hd, ih hes]
  | case3 => cases h

theorem isBlank_digitChar (d : Fin 10) : Text.isBlank (Nat.digitChar d) = false := by
  revert d
  decide

/-- Digits and a minus are no blanks. -/
theorem isBlank_of_mem_written {ds : List (Fin 10)} {negative : Bool} {c : Char}
    (h : c ∈ written ds negative) : Text.isBlank c = false := by
  unfold written at h
  rcases List.mem_append.1 h with h | h
  · split at h
    · rw [List.mem_singleton.1 h]
      decide
    · cases h
  · obtain ⟨d, _, rfl⟩ := List.mem_map.1 h
    exact isBlank_digitChar d

/-! ## Reading what is written -/

theorem ofText_of_written {s : String} {ds : List (Fin 10)} {negative : Bool} (hds : ds ≠ [])
    (h : Text.trimBlanks s.toList = written ds negative) :
    ofText s = .ok (ofTopDigits ds negative) := by
  have hminus : ∀ d : Fin 10, Nat.digitChar d ≠ '-' := by decide
  have hread := digits?_digitChar ds
  obtain ⟨d, rest, rfl⟩ := List.exists_cons_of_ne_nil hds
  rw [List.map_cons] at hread
  unfold written at h
  unfold ofText
  cases negative
  · have hu : unsigned (Nat.digitChar d :: rest.map fun d : Fin 10 => Nat.digitChar d) =
        Nat.digitChar d :: rest.map fun d : Fin 10 => Nat.digitChar d :=
      unsigned.eq_2 _ fun cs h => hminus d (List.cons.inj h).1
    simp [h, hu, hread, beq_false_of_ne (hminus d)]
  · have hu : unsigned ('-' :: Nat.digitChar d :: rest.map fun d : Fin 10 => Nat.digitChar d) =
        Nat.digitChar d :: rest.map fun d : Fin 10 => Nat.digitChar d := rfl
    simp [h, hu, hread]

/-- What is written reads back as the same number. -/
theorem ofText_text (a : Decimal) : ofText a.text = .ok a := by
  have hchars : a.chars = written a.topDigits a.negative := chars_eq a
  have htrim : Text.trimBlanks a.text.toList = written a.topDigits a.negative := by
    rw [text, String.toList_ofList, hchars,
      Text.trimBlanks_eq_self fun c hc => isBlank_of_mem_written hc]
  rw [ofText_of_written a.topDigits_ne_nil htrim, ofTopDigits_topDigits]

/-! ## Reading anything -/

/-- A text is read as the digits that it is written with. -/
theorem written_of_ofText {s : String} {a : Decimal} (h : ofText s = .ok a) :
    ∃ (ds : List (Fin 10)) (negative : Bool), ds ≠ [] ∧
      Text.trimBlanks s.toList = written ds negative ∧ a = ofTopDigits ds negative := by
  unfold ofText at h
  simp only at h
  split at h
  · cases h
  · split at h
    · cases h
    · rename_i hempty
      split at h
      · cases h
      · rename_i ds hds
        cases h
        have hchars := digits?_eq_some hds
        have hne : ds ≠ [] := by
          rintro rfl
          simp [← hchars] at hempty
        generalize Text.trimBlanks s.toList = cs at hchars
        match cs with
        | [] => exact ⟨ds, false, hne, hchars.symm, rfl⟩
        | c :: cs =>
          by_cases hc : c = '-'
          · subst hc
            exact ⟨ds, true, hne, by rw [written, hchars]; rfl, rfl⟩
          · have hu : unsigned (c :: cs) = c :: cs :=
              unsigned.eq_2 _ fun cs h => hc (List.cons.inj h).1
            rw [hu] at hchars
            exact ⟨ds, false, hne, hchars.symm, by simp [beq_false_of_ne hc]⟩

/-- A text that is not read is a malformed numeral. -/
theorem kind_of_ofText {s : String} {e : Error} (h : ofText s = .error e) : e.kind = .format := by
  unfold ofText at h
  simp only at h
  split at h
  · cases h; rfl
  · split at h
    · cases h; rfl
    · split at h
      · cases h; rfl
      · cases h

end Decimal

end Abacus
