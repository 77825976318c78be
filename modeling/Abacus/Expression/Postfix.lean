-- From infix to postfix order. Operands keep their order; an operator waits
-- until one of no higher rank, a closing parenthesis or the end comes, so
-- operators of one rank group to the left.
import Abacus.Expression.Token

namespace Abacus.Expression

/-- What waits for its right side: an operator, or an open parenthesis. -/
inductive Waiting where
  | operator (op : Operator)
  | opening
deriving DecidableEq

namespace Waiting

def operator? : Waiting → Option Operator
  | operator op => some op
  | opening => none

/-- The waiting operator comes before a new one. -/
def goesBefore (op : Operator) : Waiting → Bool
  | operator waiting => op.rank ≤ waiting.rank
  | opening => false

end Waiting

/-- The operators at the front of what waits, as tokens. -/
def release (waiting : List Waiting) : List Token :=
  waiting.filterMap fun w => w.operator?.map fun op => .symbol (.operator op)

/-- The tokens in postfix order, from here on. The newest of what waits comes
first. -/
def reorder (whole : List Token) (waiting : List Waiting) :
    List Token → Except Error (List Token)
  | [] =>
    if waiting.all (·.operator?.isSome) then .ok (release waiting)
    else .error (.unmatchedOpen (whole.map Token.toDatum))
  | .operand s :: rest => (reorder whole waiting rest).map (.operand s :: ·)
  | .foreign (.list _) :: _ => .error .unsupported
  | .foreign d :: rest => (reorder whole waiting rest).map (.foreign d :: ·)
  | .symbol .opening :: rest => reorder whole (.opening :: waiting) rest
  | .symbol .closing :: rest =>
    match waiting.dropWhile (·.operator?.isSome) with
    | [] => .error (.unmatchedClose (whole.map Token.toDatum))
    | _ :: below =>
      (reorder whole below rest).map
        (release (waiting.takeWhile (·.operator?.isSome)) ++ ·)
  | .symbol (.operator op) :: rest =>
    (reorder whole (.operator op :: waiting.dropWhile (·.goesBefore op)) rest).map
      (release (waiting.takeWhile (·.goesBefore op)) ++ ·)

/-! ## The newest open parenthesis -/

theorem release_append (as bs : List Waiting) : release (as ++ bs) = release as ++ release bs :=
  List.filterMap_append

/-- Operators alone wait, or operators above an open parenthesis. -/
theorem operators_or_opening (waiting : List Waiting) : ∃ ops : List Operator,
    waiting = ops.map .operator ∨ ∃ below, waiting = ops.map .operator ++ .opening :: below := by
  induction waiting with
  | nil => exact ⟨[], .inl rfl⟩
  | cons w waiting ih =>
    cases w with
    | opening => exact ⟨[], .inr ⟨waiting, rfl⟩⟩
    | operator op =>
      obtain ⟨ops, rfl | ⟨below, rfl⟩⟩ := ih
      · exact ⟨op :: ops, .inl rfl⟩
      · exact ⟨op :: ops, .inr ⟨below, rfl⟩⟩

theorem isSome_of_mem_operators {ops : List Operator} {w : Waiting}
    (h : w ∈ ops.map .operator) : w.operator?.isSome = true := by
  obtain ⟨op, _, rfl⟩ := List.mem_map.1 h
  rfl

theorem dropWhile_of_operators (ops : List Operator) :
    (ops.map Waiting.operator).dropWhile (·.operator?.isSome) = [] := by
  induction ops with
  | nil => rfl
  | cons op ops ih => exact ih

theorem dropWhile_operators (ops : List Operator) (below : List Waiting) :
    (ops.map Waiting.operator ++ .opening :: below).dropWhile (·.operator?.isSome) =
      .opening :: below := by
  rw [List.dropWhile_append_of_pos fun _ => isSome_of_mem_operators]
  rfl

theorem takeWhile_operators (ops : List Operator) (below : List Waiting) :
    (ops.map Waiting.operator ++ .opening :: below).takeWhile (·.operator?.isSome) =
      ops.map .operator := by
  rw [List.takeWhile_append_of_pos fun _ => isSome_of_mem_operators]
  exact List.append_nil _

/-- Operators that wait to the end come out there. -/
theorem reorder_nil (whole : List Token) (ops : List Operator) :
    reorder whole (ops.map .operator) [] = .ok (release (ops.map .operator)) := by
  rw [reorder, if_pos (List.all_eq_true.2 fun _ => isSome_of_mem_operators)]

/-- No parenthesis may be open at the end. -/
theorem reorder_nil_of_opening (whole : List Token) (ops : List Operator) (below : List Waiting) :
    reorder whole (ops.map .operator ++ .opening :: below) [] =
      .error (.unmatchedOpen (whole.map Token.toDatum)) := by
  rw [reorder, if_neg (by simp [Waiting.operator?])]

/-- A closing parenthesis lets go of the operators above the newest open one. -/
theorem reorder_closing (whole : List Token) (ops : List Operator) (below : List Waiting)
    (rest : List Token) :
    reorder whole (ops.map .operator ++ .opening :: below) (.symbol .closing :: rest) =
      (reorder whole below rest).map (release (ops.map .operator) ++ ·) := by
  rw [reorder, dropWhile_operators, takeWhile_operators]

/-- A closing parenthesis needs an open one. -/
theorem reorder_closing_of_operators (whole : List Token) (ops : List Operator)
    (rest : List Token) :
    reorder whole (ops.map .operator) (.symbol .closing :: rest) =
      .error (.unmatchedClose (whole.map Token.toDatum)) := by
  rw [reorder, dropWhile_of_operators]

/-- Whether the token is text. -/
def isText : Token → Bool
  | .foreign _ => false
  | _ => true

/-- The tokens in postfix order, without parentheses. All of them have to be
text, which counts only once the parentheses are found to match. -/
def postfixOrder (tokens : List Token) : Except Error (List Token) := do
  let ordered ← reorder tokens [] tokens
  if ordered.all isText then return ordered else .error .unsupported

/-! ## Values -/

/-- Works through tokens in postfix order. The newest value comes first. -/
def run (whole : List Token) (values : List Numeral) : List Token → Except Error (List Numeral)
  | [] => .ok values
  | .operand s :: rest => do
    let value ← Numeral.ofText s
    run whole (value :: values) rest
  | .foreign (.list _) :: _ => .error .unsupported
  | .foreign d :: _ => .error (.notText d)
  | .symbol (.operator op) :: rest =>
    match values with
    | right :: left :: below => do
      let value ← op.apply left right
      run whole (value :: below) rest
    | _ => .error (.missingOperands op.text (whole.map Token.toDatum))
  | .symbol _ :: _ => .error (.parenthesisInPostfix (whole.map Token.toDatum))

/-- The value of tokens in postfix order. -/
def postfixValue (tokens : List Token) : Except Error Numeral := do
  match ← run tokens [] tokens with
  | [value] => return value
  | values => .error (.leftoverValues values.length (tokens.map Token.toDatum))

/-- The value of tokens in infix order. -/
def infixValue (tokens : List Token) : Except Error Numeral := do
  let ordered ← postfixOrder tokens
  postfixValue ordered

/-! ## What has a value -/

section

variable {ts ordered : List Token} {z : Numeral}

theorem postfixOrder_eq_ok_iff : postfixOrder ts = .ok ordered ↔
    reorder ts [] ts = .ok ordered ∧ ordered.all isText = true := by
  constructor
  · intro h
    obtain ⟨out, hout, h⟩ := exists_of_bind_ok h
    split at h
    · rename_i htext
      cases h
      exact ⟨hout, htext⟩
    · cases h
  · rintro ⟨hreorder, htext⟩
    rw [postfixOrder, hreorder]
    exact if_pos htext

theorem postfixValue_eq_ok_iff : postfixValue ts = .ok z ↔ run ts [] ts = .ok [z] := by
  constructor
  · intro h
    obtain ⟨values, hvalues, h⟩ := exists_of_bind_ok h
    split at h
    · cases h
      exact hvalues
    · cases h
  · intro h
    rw [postfixValue, h]
    rfl

/-- Tokens have a value when they can be reordered into text and leave one
value then. -/
theorem infixValue_eq_ok_iff : infixValue ts = .ok z ↔
    ∃ ordered, reorder ts [] ts = .ok ordered ∧ ordered.all isText = true ∧
      run ordered [] ordered = .ok [z] := by
  constructor
  · intro h
    obtain ⟨ordered, hordered, hvalue⟩ := exists_of_bind_ok h
    obtain ⟨hreorder, htext⟩ := postfixOrder_eq_ok_iff.1 hordered
    exact ⟨ordered, hreorder, htext, postfixValue_eq_ok_iff.1 hvalue⟩
  · rintro ⟨ordered, hreorder, htext, hrun⟩
    rw [infixValue, postfixOrder_eq_ok_iff.2 ⟨hreorder, htext⟩]
    exact postfixValue_eq_ok_iff.2 hrun

end

end Abacus.Expression
