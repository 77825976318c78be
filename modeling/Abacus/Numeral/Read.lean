-- Numerals read from what a caller hands in: text, integers, numerals, and
-- lists of digits in a base. Each reader says which of the faults it finds
-- first.
import Abacus.Decimal.Read

namespace Abacus

namespace Datum

/-- The integer that the datum is. -/
def toInt : Datum → Except Error Int
  | integer n => .ok n
  | d => .error (.notInteger d)

/-- The text that the datum is. -/
def toText : Datum → Except Error String
  | text s => .ok s
  | _ => .error .unsupported

/-- The text of the datum without blanks at both ends, if it is a numeral. -/
def numeralText : Datum → Except Error String
  | text s => (Decimal.ofText s).map fun _ => String.ofList (Text.trimBlanks s.toList)
  | d => .error (.notText d)

/-- A base for digits. -/
def digitBase : Datum → Except Error { base : Nat // 2 ≤ base }
  | integer n =>
    if h : leastBase ≤ n then .ok ⟨n.toNat, two_le_toNat h⟩
    else .error (.badBase (.integer n))
  | d => .error (.badBase d)

/-- One digit in a base. -/
def digitIn (base : Nat) : Datum → Except Error (Fin base)
  | integer n =>
    if h : 0 ≤ n ∧ n < base then .ok ⟨n.toNat, by omega⟩ else .error (.digitOutOfRange n base)
  | d => .error (.notDigit d)

/-- What the datum is made of: the items of a list, the characters of a text.
Those of a look-alike look like characters in turn. -/
def items : Datum → Except Error (List Datum)
  | list ds => .ok ds
  | text s => .ok (s.toList.map fun c => .text c.toString)
  | lookalike s => .ok (s.toList.map fun c => .lookalike c.toString)
  | _ => .error .unsupported

end Datum

namespace Numeral

/-- Reads a numeral text. -/
def ofText (s : String) : Except Error Numeral := do
  let a ← Decimal.ofText s
  return a.toNumeral

/-- Reads text only. -/
def ofTextDatum : Datum → Except Error Numeral
  | .text s => ofText s
  | d => .error (.notText d)

/-- Reads an integer only. -/
def ofIntDatum (d : Datum) : Except Error Numeral := do
  let n ← d.toInt
  return ofInt n

/-- Reads a numeral, a numeral text or an integer. -/
def ofDatum : Datum → Except Error Numeral
  | .numeral a => .ok a
  | .text s => ofText s
  | d => ofIntDatum d

/-- Reads digits in a base, the lowest digit first: what they are listed in
must be a list, then the base must be one, then each digit must be in range. -/
def ofDigitData (digits base negative : Datum) : Except Error Numeral := do
  let items ← digits.items
  let ⟨base, h⟩ ← base.digitBase
  let ds ← items.mapM (Datum.digitIn base)
  return ofDigits base (ds.map Fin.val) negative.isTrue h (Digits.fits_val ds)

end Numeral

end Abacus
