-- Everything that can go wrong, as one cause each, and what a report of it
-- says: its kind, a reason, and the value that is to blame where there is one.
import Abacus.Datum

namespace Abacus

/-- Why a request was refused. -/
inductive Error where
  | notText (value : Datum)
  | notInteger (value : Datum)
  | emptyNumeral (text : String)
  | noDigits (text : String)
  | nonDigit (text : String)
  | badBase (value : Datum)
  | notDigit (value : Datum)
  | digitOutOfRange (digit : Int) (base : Nat)
  | unexpectedCharacter (c : Char) (text : String)
  | baseTooSmall (base : Int)
  | outsideDomain (reason : String) (value : Numeral)
  | divisionByZero (dividend : Numeral)
  | unmatchedClose (tokens : List Datum)
  | unmatchedOpen (tokens : List Datum)
  | parenthesisInPostfix (tokens : List Datum)
  | missingOperands (symbol : String) (tokens : List Datum)
  | leftoverValues (count : Nat) (tokens : List Datum)
  | notBinary (symbol : String)
  | outsideWord (value : Numeral)
  | nothingToUndo
  /-- The datum is of a kind that the request cannot work with at all. -/
  | unsupported

/-- The families of errors. -/
inductive ErrorKind where
  | general | format | operand | divisionByZero | expression | overflow | calculator | unsupported
deriving DecidableEq

/-- What is told about an error. -/
structure Report where
  kind : ErrorKind
  reason : String
  /-- The value to blame, as text. -/
  shown : Option String

namespace Report

/-- The reason and, where there is one, the value to blame. -/
def message (r : Report) : String :=
  match r.shown with
  | none => r.reason
  | some text => s!"{r.reason}: {text}"

/-- The datum as a value to blame; nothing is not shown. -/
def blame : Datum → Option String
  | .nothing => none
  | d => some d.alone

/-- Texts between parentheses, with a comma after the only one. -/
def tupleText (texts : List String) : String :=
  match texts.map Text.quote with
  | [one] => s!"({one},)"
  | all => "(" ++ ", ".intercalate all ++ ")"

def general (reason : String) (value : Datum := .nothing) : Report := ⟨.general, reason, blame value⟩

def format (value : Datum) (reason : String := "malformed numeral") : Report :=
  ⟨.format, reason, blame value⟩

def operand (value : Datum) (reason : String := "invalid operand") : Report :=
  ⟨.operand, reason, blame value⟩

/-- The dividend is always shown. -/
def divisionByZero (dividend : Datum) : Report :=
  ⟨.divisionByZero, "Division by zero", some dividend.alone⟩

def expression (reason : String) (tokens : Datum := .nothing) : Report :=
  ⟨.expression, reason, blame tokens⟩

/-- The operands are always shown. -/
def overflow (operation : String) (operands : List Datum) : Report :=
  ⟨.overflow, s!"Overflow in {operation}", some (tupleText (operands.map Datum.alone))⟩

def calculator (reason : String) (value : Datum := .nothing) : Report := ⟨.calculator, reason, blame value⟩

end Report

/-- What is told about each error. -/
def Error.report : Error → Report
  | notText d => .format d s!"Expected str, got {d.kindName}"
  | notInteger d => .format d s!"Expected int, got {d.kindName}"
  | emptyNumeral s => .format (.text s) "Numeral is empty"
  | noDigits s => .format (.text s) "Numeral has no digits"
  | nonDigit s => .format (.text s) "Numeral must contain only ASCII digits"
  | badBase d => .format d ("Base must be an integer of at least " ++ intText leastBase)
  | notDigit d => .format d s!"Digit must be int, got {d.kindName}"
  | digitOutOfRange digit base =>
    .format (.integer digit) ("Digit out of range for base " ++ intText base)
  | unexpectedCharacter c s =>
    .format (.text s) ("Unexpected character " ++ Text.quote c.toString)
  | baseTooSmall base => .operand (.integer base) ("Base must be at least " ++ intText leastBase)
  | outsideDomain reason a => .operand (.numeral a) reason
  | divisionByZero a => .divisionByZero (.numeral a)
  | unmatchedClose tokens => .expression "Unmatched ')'" (.list tokens)
  | unmatchedOpen tokens => .expression "Unmatched '('" (.list tokens)
  | parenthesisInPostfix tokens => .expression "Parenthesis in postfix expression" (.list tokens)
  | missingOperands symbol tokens =>
    .expression ("Operator " ++ Text.quote symbol ++ " needs two operands") (.list tokens)
  | leftoverValues count tokens =>
    .expression ("Expression left " ++ intText count ++ " values instead of one") (.list tokens)
  | notBinary symbol => .expression (Text.quote symbol ++ " is not a binary operator")
  | outsideWord a => .overflow "int_value" [.numeral a]
  | nothingToUndo => .calculator "Nothing to undo"
  | unsupported => ⟨.unsupported, "Unsupported kind of value", none⟩

namespace Error

def kind (e : Error) : ErrorKind := e.report.kind

def message (e : Error) : String := e.report.message

end Error

/-! ## Outcomes -/

section

variable {α β : Type}

theorem exists_of_map_ok {f : α → β} {x : Except Error α} {b : β} (h : x.map f = .ok b) :
    ∃ a, x = .ok a ∧ f a = b := by
  cases x with
  | error e => cases h
  | ok a =>
    cases h
    exact ⟨a, rfl, rfl⟩

theorem exists_of_bind_ok {x : Except Error α} {f : α → Except Error β} {b : β}
    (h : x >>= f = .ok b) : ∃ a, x = .ok a ∧ f a = .ok b := by
  cases x with
  | error e => cases h
  | ok a => exact ⟨a, rfl, h⟩

/-- What is refused under a condition, and has a result without it, is refused
exactly under the condition. -/
theorem refused_iff {x : Except Error α} {refused : Prop} {told : Error → Prop}
    (herror : refused → ∃ e, x = .error e ∧ told e) (hok : ¬ refused → ∃ a, x = .ok a) :
    (∃ e, x = .error e ∧ told e) ↔ refused := by
  constructor
  · rintro ⟨e, he, _⟩
    apply Classical.byContradiction
    intro h
    obtain ⟨a, ha⟩ := hok h
    rw [ha] at he
    cases he
  · exact herror

end

end Abacus
