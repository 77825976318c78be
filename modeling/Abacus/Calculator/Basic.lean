-- A calculator: a current value, and a history of the steps that led to it.
-- Every step that lands adds one entry, and undoing takes the newest one away
-- again. A step that is refused should keep what it found, but nothing in the
-- state forces it to, and evaluating sets the value before the last thing that
-- can go wrong.
import Abacus.Calculator.Entry

namespace Abacus

structure Calculator where
  value : Numeral
  /-- The steps so far, the newest first. -/
  history : List Entry

/-- What a calculator can be asked to do. -/
inductive Call where
  | operate (op : Operator) (operand : Datum)
  | root
  | evaluate (expression : Datum)
  | clear
  | set (value : Datum)
  | undo

namespace Calculator

/-- Work on a calculator. A refusal leaves it as it is at that moment. -/
abbrev Step := EStateM Error Calculator Unit

/-- A new calculator; its value is its first entry. -/
def start (value : Datum) : Except Error Calculator := do
  let a ← Numeral.ofDatum value
  return ⟨a, [⟨a, .init a⟩]⟩

/-- Gives the calculator a new value. -/
def setValue (a : Numeral) : Step := modify fun c => { c with value := a }

/-- Adds an entry with the current value. -/
def record (action : Action) : Step :=
  modify fun c => { c with history := ⟨c.value, action⟩ :: c.history }

/-- The value of the operation takes the place of the current one. -/
def operate (op : Operator) (operand : Datum) : Step := do
  let y ← ofExcept (Numeral.ofDatum operand)
  let c ← get
  let z ← ofExcept (op.apply c.value y)
  setValue z
  record (.operate op y)

/-- The square root takes the place of the current value. -/
def root : Step := do
  let c ← get
  let z ← ofExcept c.value.root
  setValue z
  record .root

/-- The text that an evaluation is remembered by: the text itself, or tokens
with one space between them, which all have to be text. -/
def sourceText : Datum → Except Error String
  | .text s => .ok s
  | d => do
    let tokens ← d.items
    let texts ← tokens.mapM Datum.toText
    return " ".intercalate texts

/-- The value of an expression takes the place of the current one. The text to
remember is put together last. -/
def evaluate (expression : Datum) : Step := do
  let tokens ← ofExcept expression.tokens
  let z ← ofExcept (Expression.infixValue tokens)
  setValue z
  let source ← ofExcept (sourceText expression)
  record (.evaluate source)

/-- Zero, and a history that starts anew. -/
def clear : Step := do
  setValue .zero
  modify fun c => { c with history := [] }
  record .clear

/-- A value handed in takes the place of the current one. -/
def set (value : Datum) : Step := do
  let a ← ofExcept (Numeral.ofDatum value)
  setValue a
  record (.set a)

/-- Goes back to the entry before the newest one. The first entry stays. -/
def undo : Step := do
  let c ← get
  match c.history with
  | _ :: last :: before => EStateM.set ⟨last.value, last :: before⟩
  | _ => throw .nothingToUndo

/-- A copy: a new calculator of the same value, whose first entry gives way to
the history that it takes over. -/
def copy (c : Calculator) : Except Error Calculator := do
  let d ← start (.numeral c.value)
  return { d with history := c.history }

/-- Does what the call asks for. -/
def perform : Call → Step
  | .operate op d => operate op d
  | .root => root
  | .evaluate d => evaluate d
  | .clear => clear
  | .set d => set d
  | .undo => undo

/-- The calculator in short. -/
def text (c : Calculator) : String :=
  let value := c.value.text
  let count := intText c.history.length
  s!"Calculator(value={value}, history_len={count})"

/-- Both show the same number. -/
def same (a b : Calculator) : Bool := a.value.toInt == b.value.toInt

end Calculator

/-! ## Several calculators -/

/-- Calculators side by side, each known by its place. -/
abbrev Desk := List Calculator

/-- Work at a desk. -/
inductive Move where
  | call (place : Nat) (call : Call)
  /-- Puts a copy of a calculator after the last one. -/
  | copy (place : Nat)

/-- The desk after a move, and the error if the move was refused. -/
def Desk.move (desk : Desk) : Move → Desk × Option Error
  | .call place call =>
    match desk[place]? with
    | none => (desk, none)
    | some c =>
      match (Calculator.perform call).run c with
      | .ok _ d => (desk.set place d, none)
      | .error e d => (desk.set place d, some e)
  | .copy place =>
    match desk[place]? with
    | none => (desk, none)
    | some c =>
      match c.copy with
      | .ok d => (desk ++ [d], none)
      | .error e => (desk, some e)

end Abacus
