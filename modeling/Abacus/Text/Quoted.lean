-- Quoted text, as messages show it: between single quotes, or between double
-- quotes when only single ones stand in it. The mark, a backslash and every
-- character without a mark on the page are escaped, so no quoted text ends
-- early and none holds a hidden character.
import Abacus.Text.Unassigned

namespace Abacus.Text

/-! ## Characters without a mark on the page -/

/-- Controls, format characters, separators other than the space, and private
use. -/
def silentRanges : List (Nat × Nat) :=
  [(0x00, 0x1F), (0x7F, 0xA0), (0xAD, 0xAD), (0x0600, 0x0605), (0x061C, 0x061C),
   (0x06DD, 0x06DD), (0x070F, 0x070F), (0x0890, 0x0891), (0x08E2, 0x08E2), (0x1680, 0x1680),
   (0x180E, 0x180E), (0x2000, 0x200F), (0x2028, 0x202F), (0x205F, 0x2064), (0x2066, 0x206F),
   (0x3000, 0x3000), (0xE000, 0xF8FF), (0xFEFF, 0xFEFF), (0xFFF9, 0xFFFB), (0x110BD, 0x110BD),
   (0x110CD, 0x110CD), (0x13430, 0x13438), (0x1BCA0, 0x1BCA3), (0x1D173, 0x1D17A),
   (0xE0001, 0xE0001), (0xE0020, 0xE007F), (0xF0000, 0xFFFFD), (0x100000, 0x10FFFD)]

example : apart silentRanges = true := by decide

/-- No silent character stands on an unassigned code point. -/
example : silentRanges.all (fun r => !inRanges unassignedRanges r.1) = true := by decide +kernel

/-- The character is silent, or its code point is unassigned. -/
def isHidden (c : Char) : Bool :=
  inRanges silentRanges c.toNat || inRanges unassignedRanges c.toNat

/-- Of the blanks only the space itself leaves no need for an escape. -/
example :
    blankRanges.all (fun r => r = (0x1C, 0x20) ∨ inRanges silentRanges r.1 = true) = true := by
  decide

/-! ## Quotes and escapes -/

/-- The quotes that go around a text. -/
def quoteMark (cs : List Char) : Char :=
  if cs.contains '\'' && !cs.contains '"' then '"' else '\''

/-- The lowest `width` hexadecimal digits of a number, in lower case. -/
def hexDigits : Nat → Nat → List Char
  | 0, _ => []
  | width + 1, n => hexDigits width (n / 16) ++ [Nat.digitChar (n % 16)]

/-- One character of a quoted text. -/
def escape (mark c : Char) : List Char :=
  if c = mark ∨ c = '\\' then ['\\', c]
  else if c = '\n' then ['\\', 'n']
  else if c = '\r' then ['\\', 'r']
  else if c = '\t' then ['\\', 't']
  else if !isHidden c then [c]
  else if c.toNat < 0x100 then '\\' :: 'x' :: hexDigits 2 c.toNat
  else if c.toNat < 0x10000 then '\\' :: 'u' :: hexDigits 4 c.toNat
  else '\\' :: 'U' :: hexDigits 8 c.toNat

/-- The text between quotes. -/
def quote (s : String) : String :=
  let mark := quoteMark s.toList
  String.ofList (mark :: s.toList.flatMap (escape mark) ++ [mark])

end Abacus.Text
