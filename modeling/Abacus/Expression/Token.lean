-- The tokens of an expression: symbols and operands. A text is cut into
-- tokens at blanks and symbols, and digits that stand together are one
-- operand. A list holds its tokens ready made, and may hold what no
-- expression can use.
import Abacus.Expression.Operator

namespace Abacus

inductive Token where
  /-- A symbol, given as its text or as an object that equals the text. -/
  | symbol (symbol : Symbol)
  /-- A text that is no symbol; whether it is a numeral shows when its value
  is asked for. -/
  | operand (text : String)
  /-- Anything that is not text. -/
  | foreign (value : Datum)

namespace Token

/-- A text as one token. -/
def ofText (s : String) : Token :=
  match Symbol.ofText? s with
  | some s => symbol s
  | none => operand s

/-- A datum as one token. Symbols are found by what a datum equals, whatever its
kind. -/
def ofDatum : Datum → Token
  | .text s => ofText s
  | .lookalike s =>
    match Symbol.ofText? s with
    | some s => symbol s
    | none => foreign (.lookalike s)
  | d => foreign d

/-- The datum of a token, which prints as the one that was handed in. -/
def toDatum : Token → Datum
  | symbol s => .text s.text
  | operand s => .text s
  | foreign d => d

/-! ## Cutting a text -/

/-- The operand that ends here, if digits are waiting, before more tokens. -/
def closeOperand (waiting : List Char) (rest : List Token) : List Token :=
  if waiting.isEmpty then rest else operand (String.ofList waiting.reverse) :: rest

/-- Cuts characters into tokens. The digits of an operand that may go on are
waiting, the last one first. -/
def cut (whole : String) (waiting : List Char) : List Char → Except Error (List Token)
  | [] => .ok (closeOperand waiting [])
  | c :: cs =>
    if (Decimal.digit? c).isSome then cut whole (c :: waiting) cs
    else if Text.isBlank c then (cut whole [] cs).map (closeOperand waiting)
    else
      match Symbol.ofText? c.toString with
      | none => .error (.unexpectedCharacter c whole)
      | some s => (cut whole [] cs).map fun rest => closeOperand waiting (symbol s :: rest)

/-- The tokens of a text. -/
def scan (s : String) : Except Error (List Token) := cut s [] s.toList

/-! ## What stands in a text -/

section

variable (whole : String)

theorem map_closeOperand_nil (outcome : Except Error (List Token)) :
    outcome.map (closeOperand []) = outcome := by
  cases outcome <;> rfl

/-- Digits join those that wait. -/
theorem cut_digits {ds : List Char} (h : ∀ d ∈ ds, (Decimal.digit? d).isSome = true)
    (waiting rest : List Char) :
    cut whole waiting (ds ++ rest) = cut whole (ds.reverse ++ waiting) rest := by
  induction ds generalizing waiting with
  | nil => rfl
  | cons d ds ih =>
    obtain ⟨hd, hds⟩ := List.forall_mem_cons.1 h
    rw [List.cons_append, cut, if_pos hd, ih hds, List.reverse_cons, List.append_assoc]
    rfl

theorem digit?_of_isBlank {c : Char} (h : Text.isBlank c = true) : Decimal.digit? c = none := by
  cases hd : Decimal.digit? c with
  | none => rfl
  | some d =>
    rw [← Decimal.digit?_eq_some hd, Decimal.isBlank_digitChar] at h
    cases h

/-- A blank ends what waits. -/
theorem cut_blank {c : Char} (h : Text.isBlank c = true) (waiting rest : List Char) :
    cut whole waiting (c :: rest) = (cut whole [] rest).map (closeOperand waiting) := by
  rw [cut, digit?_of_isBlank h, if_neg (by decide), if_pos h]

theorem cut_blanks {cs : List Char} (h : ∀ c ∈ cs, Text.isBlank c = true) (rest : List Char) :
    cut whole [] (cs ++ rest) = cut whole [] rest := by
  induction cs with
  | nil => rfl
  | cons c cs ih =>
    obtain ⟨hc, hcs⟩ := List.forall_mem_cons.1 h
    rw [List.cons_append, cut_blank whole hc, map_closeOperand_nil, ih hcs]

/-- What waits ends before a character that is no digit, and at the end of the text. -/
theorem cut_of_break {rest : List Char} (h : ∀ c ∈ rest.head?, Decimal.digit? c = none)
    (waiting : List Char) :
    cut whole waiting rest = (cut whole [] rest).map (closeOperand waiting) := by
  cases rest with
  | nil => rfl
  | cons c rest =>
    have hc : ¬ (Decimal.digit? c).isSome = true := by
      rw [h c rfl]
      decide
    rw [cut, cut, if_neg hc, if_neg hc]
    split
    · rw [map_closeOperand_nil]
    · split
      · rfl
      · cases cut whole [] rest <;> rfl

/-- Digits before a character that is none, or before the end, are an operand. -/
theorem cut_operand {ds rest : List Char} (hne : ds ≠ [])
    (hds : ∀ d ∈ ds, (Decimal.digit? d).isSome = true)
    (h : ∀ c ∈ rest.head?, Decimal.digit? c = none) :
    cut whole [] (ds ++ rest) = (cut whole [] rest).map (operand (String.ofList ds) :: ·) := by
  have hclose : closeOperand ds.reverse = (operand (String.ofList ds) :: ·) := by
    funext tokens
    rw [closeOperand, List.reverse_reverse, if_neg (by simpa using hne)]
  rw [cut_digits whole hds, List.append_nil, cut_of_break whole h, hclose]

/-- A symbol ends what waits, and is a token of its own. -/
theorem cut_symbol (symbol : Symbol) (waiting rest : List Char) :
    cut whole waiting (symbol.text.toList ++ rest) =
      (cut whole [] rest).map fun tokens => closeOperand waiting (.symbol symbol :: tokens) := by
  rcases symbol with (_ | _ | _ | _ | _ | _) | _ | _ <;> rfl

end

end Token

/-- The tokens of what a caller hands in as an expression. -/
def Datum.tokens : Datum → Except Error (List Token)
  | text s => Token.scan s
  | d => do
    let ds ← d.items
    return ds.map Token.ofDatum

theorem Datum.tokens_texts (texts : List String) :
    (Datum.list (texts.map .text)).tokens = .ok (texts.map Token.ofText) := by
  unfold tokens items
  show Except.ok ((texts.map .text).map Token.ofDatum) = _
  rw [List.map_map]
  rfl

end Abacus
