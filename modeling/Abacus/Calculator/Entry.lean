-- The entries of a calculator's history. Each one holds what was done and the
-- value that it left.
import Abacus.Expression.Postfix

namespace Abacus

/-- Something that a calculator did. -/
inductive Action where
  | init (value : Numeral)
  | operate (op : Operator) (operand : Numeral)
  | root
  | evaluate (source : String)
  | clear
  | set (value : Numeral)

/-- What an action was given. -/
inductive Operand where
  | numeral (value : Numeral)
  | source (text : String)

def Operand.text : Operand → String
  | numeral a => a.text
  | source s => s

/-- The name of an operator in a history. -/
def Operator.name : Operator → String
  | add => "add"
  | subtract => "subtract"
  | multiply => "multiply"
  | divide => "divide"
  | mod => "mod"
  | power => "power"

namespace Action

def name : Action → String
  | init _ => "init"
  | operate op _ => op.name
  | root => "sqrt"
  | evaluate _ => "evaluate"
  | clear => "clear"
  | set _ => "set"

def operands : Action → List Operand
  | init a => [.numeral a]
  | operate _ a => [.numeral a]
  | root => []
  | evaluate s => [.source s]
  | clear => []
  | set a => [.numeral a]

/-- The same thing was done, with numerals of the same numbers. -/
def same : Action → Action → Bool
  | init a, init b => a.toInt == b.toInt
  | operate op a, operate oq b => op == oq && a.toInt == b.toInt
  | root, root => true
  | evaluate s, evaluate t => s == t
  | clear, clear => true
  | set a, set b => a.toInt == b.toInt
  | _, _ => false

end Action

/-- One step of a history. -/
structure Entry where
  /-- The value after the step. -/
  value : Numeral
  action : Action

namespace Entry

def text (e : Entry) : String :=
  let operands := ", ".intercalate (e.action.operands.map Operand.text)
  let name := e.action.name
  let value := e.value.text
  s!"{name}({operands}) = {value}"

/-- The same step left the same number. -/
def same (a b : Entry) : Bool := a.value.toInt == b.value.toInt && a.action.same b.action

end Entry

end Abacus
