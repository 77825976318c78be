-- How data compare. Only numerals and integers do, with one another as well,
-- and always as the integers they stand for. All the questions that can be asked
-- about two data are answered from two of them: are they equal, and is the first
-- one below the second.
import Abacus.Error

namespace Abacus

/-- An order as a number: minus one, zero or one. -/
def signOf : Ordering → Int
  | .lt => -1
  | .eq => 0
  | .gt => 1

/-- A question about two data. -/
inductive Relation where
  | equal | different | below | atMost | above | atLeast

namespace Relation

/-- The question that asks the same of the two data in the other order. -/
def reversed : Relation → Relation
  | equal => equal
  | different => different
  | below => above
  | atMost => atLeast
  | above => below
  | atLeast => atMost

/-- The answer for data that compare, from "equal" and "below" alone. -/
def answer (order : Ordering) : Relation → Bool
  | equal => order == .eq
  | different => !(order == .eq)
  | below => order == .lt
  | atMost => order == .lt || order == .eq
  | above => !(order == .lt) && !(order == .eq)
  | atLeast => !(order == .lt)

/-- The answer for data that do not compare: they differ, and no order is told. -/
def strangers : Relation → Except Error Bool
  | equal => .ok false
  | different => .ok true
  | _ => .error .unsupported

end Relation

namespace Datum

/-- The numeral that takes the place of a datum in a comparison. -/
def comparable? : Datum → Option Numeral
  | numeral a => some a
  | integer n => some (.ofInt n)
  | _ => none

/-- How two data compare; other data than numerals and integers do not. -/
def order? (a b : Datum) : Option Ordering := do
  return (← a.comparable?).cmp (← b.comparable?)

/-- What the first datum answers. -/
def answer (relation : Relation) (a b : Datum) : Except Error Bool :=
  match a.order? b with
  | some order => .ok (relation.answer order)
  | none => relation.strangers

/-- What is told of two data of which one is a numeral. The first one answers if it
is a numeral, and else the second one does, which is asked in the other order. -/
def relates (relation : Relation) : Datum → Datum → Except Error Bool
  | numeral a, b => (numeral a).answer relation b
  | a, b => b.answer relation.reversed a

/-- The integer that a datum is hashed by, so that data which compare are told
apart: one for each number. -/
def key? (d : Datum) : Option Int := d.comparable?.map Numeral.toInt

/-- Data that compare do so as their integers. -/
theorem order?_eq {a b : Datum} {m n : Int} (ha : a.key? = some m) (hb : b.key? = some n) :
    a.order? b = some (compare m n) := by
  obtain ⟨x, hx, rfl⟩ := Option.map_eq_some_iff.1 ha
  obtain ⟨y, hy, rfl⟩ := Option.map_eq_some_iff.1 hb
  rw [order?, hx, hy]
  exact congrArg some (Numeral.cmp_eq x y)

end Datum

end Abacus
