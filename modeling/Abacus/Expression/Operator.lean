-- The six binary operators and the two parentheses. Each has a symbol and a
-- rank of its own; of two operators the one of higher rank binds tighter.
import Abacus.Numeral.Operations

namespace Abacus

inductive Operator where
  | add | subtract | multiply | divide | mod | power
deriving DecidableEq

namespace Operator

/-- No two operators share a rank. -/
def rank : Operator → Nat
  | add => 1
  | subtract => 2
  | multiply => 3
  | divide => 4
  | mod => 5
  | power => 6

def text : Operator → String
  | add => "+"
  | subtract => "-"
  | multiply => "*"
  | divide => "/"
  | mod => "%"
  | power => "^"

/-- The value of the operator on a left and a right operand. -/
def apply : Operator → Numeral → Numeral → Except Error Numeral
  | add, a, b => .ok (a.add b)
  | subtract, a, b => .ok (a.sub b)
  | multiply, a, b => .ok (a.mul b)
  | divide, a, b => a.divide b
  | mod, a, b => a.mod b
  | power, a, b => a.powNumeral b

end Operator

/-- What an expression is built with, numerals apart. -/
inductive Symbol where
  | operator (op : Operator)
  | opening
  | closing
deriving DecidableEq

namespace Symbol

/-- All symbols, by rank. -/
def all : List Symbol :=
  [operator .add, operator .subtract, operator .multiply, operator .divide, operator .mod,
   operator .power, opening, closing]

def rank : Symbol → Nat
  | operator op => op.rank
  | opening => 7
  | closing => 8

def text : Symbol → String
  | operator op => op.text
  | opening => "("
  | closing => ")"

/-- A parenthesis takes no operands. -/
def isBinary : Symbol → Bool
  | operator _ => true
  | _ => false

/-- The symbol with exactly this text. -/
def ofText? (s : String) : Option Symbol := all.find? fun symbol => symbol.text == s

/-- The value of the symbol on two operands; a parenthesis has none. -/
def apply : Symbol → Numeral → Numeral → Except Error Numeral
  | operator op, a, b => op.apply a b
  | symbol, _, _ => .error (.notBinary symbol.text)

theorem ofText?_text (symbol : Symbol) : ofText? symbol.text = some symbol := by
  rcases symbol with (_ | _ | _ | _ | _ | _) | _ | _ <;> decide

theorem text_of_ofText? {s : String} {symbol : Symbol} (h : ofText? s = some symbol) :
    symbol.text = s := by
  simpa using List.find?_some h

end Symbol

end Abacus
