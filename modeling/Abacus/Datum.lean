-- What a caller may hand in where a number, a digit, a base or an expression
-- is wanted. Most operations take only some kinds of datum, and an error
-- names the kind it was given.
import Abacus.Numeral.Forms

namespace Abacus

inductive Datum where
  | nothing
  | truth (value : Bool)
  | integer (value : Int)
  /-- A number with a fraction, known by its text alone. -/
  | real (text : String)
  | text (value : String)
  /-- An object of another kind that equals this text and prints as it, so it is
  found wherever the text is looked up. -/
  | lookalike (text : String)
  | list (items : List Datum)
  | numeral (value : Numeral)
deriving Inhabited

namespace Datum

/-- The name of the kind, as errors give it. -/
def kindName : Datum → String
  | nothing => "NoneType"
  | truth _ => "bool"
  | integer _ => "int"
  | real _ => "float"
  | text _ => "str"
  | lookalike _ => "UserString"
  | list _ => "list"
  | numeral _ => "BigInt"

/-- Nothing, zeros and what is empty count as false, all else as true. -/
def isTrue : Datum → Bool
  | nothing => false
  | truth b => b
  | integer n => n != 0
  | real t => t != "0.0" && t != "-0.0"
  | text s => s != ""
  | lookalike s => s != ""
  | list items => !items.isEmpty
  | numeral a => !a.isZero

mutual

/-- The datum as it stands inside a list. -/
def inner : Datum → String
  | nothing => "None"
  | truth b => if b then "True" else "False"
  | integer n => intText n
  | real t => t
  | text s => Text.quote s
  | lookalike s => Text.quote s
  | list items => "[" ++ ", ".intercalate (innerAll items) ++ "]"
  | numeral a => a.fullText

def innerAll : List Datum → List String
  | [] => []
  | d :: ds => inner d :: innerAll ds

end

/-- The datum as it stands alone: text bare, a number as its numeral. -/
def alone : Datum → String
  | text s => s
  | lookalike s => s
  | numeral a => a.text
  | d => d.inner

end Datum

end Abacus
