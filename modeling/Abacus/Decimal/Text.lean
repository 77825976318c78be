-- Decimals as text: the digits from the top down, after a minus for a
-- negative number. Reading takes such text back, zeros at the top included,
-- and needs every character to be one of the ten ASCII digits.
import Abacus.Decimal.Basic

namespace Abacus.Decimal

/-- The digit that a character stands for; the ten ASCII digits only. -/
def digit? (c : Char) : Option (Fin 10) :=
  if h : '0'.toNat ≤ c.toNat ∧ c.toNat ≤ '9'.toNat then
    some ⟨c.toNat - '0'.toNat, by have := h.2; simp only [Char.reduceToNat] at *; omega⟩
  else none

/-- The digits of a text without a sign, the top digit first. -/
def digits? : List Char → Option (List (Fin 10))
  | [] => some []
  | c :: cs =>
    match digit? c, digits? cs with
    | some d, some ds => some (d :: ds)
    | _, _ => none

/-- The decimal with these digits, the top digit first. -/
def ofTopDigits (ds : List (Fin 10)) (negative : Bool) : Decimal :=
  ofDigits (ds.reverse.map Fin.val) negative (Digits.fits_val ds.reverse)

/-- The characters of the numeral. -/
def chars (a : Decimal) : List Char :=
  (if a.negative then ['-'] else []) ++ a.digits.reverse.map Nat.digitChar

/-- The numeral. -/
def text (a : Decimal) : String := String.ofList a.chars

/-! ## Reading what is written -/

theorem digit?_digitChar (d : Fin 10) : digit? (Nat.digitChar d) = some d := by
  revert d
  decide

theorem digits?_digitChar (ds : List (Fin 10)) :
    digits? (ds.map fun d : Fin 10 => Nat.digitChar d) = some ds := by
  induction ds with
  | nil => rfl
  | cons d ds ih => rw [List.map_cons, digits?, digit?_digitChar, ih]

/-- The digits of a decimal as digits below ten, the top digit first. -/
def topDigits (a : Decimal) : List (Fin 10) :=
  (a.digits.attach.map fun d => (⟨d.1, a.fits_ten d.1 d.2⟩ : Fin 10)).reverse

theorem map_topDigits {α : Type} (a : Decimal) (f : Nat → α) :
    (a.topDigits.map fun d : Fin 10 => f d) = a.digits.reverse.map f := by
  rw [topDigits, List.map_reverse, List.map_map, List.map_reverse]
  congr 1
  simp

theorem chars_eq (a : Decimal) :
    a.chars = (if a.negative then ['-'] else []) ++ a.topDigits.map fun d : Fin 10 => Nat.digitChar d := by
  rw [chars, map_topDigits]

theorem topDigits_ne_nil (a : Decimal) : a.topDigits ≠ [] := by
  intro h
  have := map_topDigits a id
  rw [h] at this
  exact a.trimmed.1 (by simpa using this.symm)

theorem ofTopDigits_topDigits (a : Decimal) : ofTopDigits a.topDigits a.negative = a := by
  apply eq_of_toInt
  have h := map_topDigits a id
  have hv : a.topDigits.reverse.map Fin.val = a.digits := by
    rw [List.map_reverse, ← List.reverse_reverse a.digits, ← List.map_id a.digits.reverse, ← h]
    rfl
  rw [ofTopDigits, toInt_ofDigits, hv, Numeral.toInt, magnitude_eq]

end Abacus.Decimal

namespace Abacus

/-- The decimal numeral of an integer. -/
def intText (n : Int) : String := (Decimal.ofInt n).text

end Abacus
