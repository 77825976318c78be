-- Calculators at a desk. Moves address them in any order, and copies are taken
-- at any time. Every calculator has a line of its own: the new calculator that
-- it goes back to, and the calls from there on, which a copy takes over from
-- its source. What a calculator is follows from its line alone.
import Abacus.Proofs.Calculator.Undo

namespace Abacus

/-! ## Lines -/

/-- Where a calculator comes from. -/
structure Line where
  /-- The new calculator at the start. -/
  first : Calculator
  /-- What was asked of it, and of its source until it was copied. -/
  calls : List Call

namespace Line

/-- The calculator that the line leads to. -/
def last (line : Line) : Calculator := line.first.after line.calls

def add (call : Call) (line : Line) : Line := ⟨line.first, line.calls ++ [call]⟩

/-- The lines after a move. A call adds to one line, and a copy has the line
of its source. -/
def move (lines : List Line) : Move → List Line
  | .call place call => lines.modify place (add call)
  | .copy place => lines ++ lines[place]?.toList

theorem last_add (call : Call) (line : Line) :
    (line.add call).last = (line.last.answer call).1 := by
  rw [last, add, Calculator.after_append]
  rfl

end Line

/-- A copy has the value and the whole history of its source. -/
theorem Calculator.copy_eq (c : Calculator) : c.copy = .ok c := rfl

namespace Desk

/-- The desk after some moves. -/
def after (desk : Desk) (moves : List Move) : Desk :=
  moves.foldl (fun desk move => (desk.move move).1) desk

/-- The lines of the calculators after some moves, from a desk on. -/
def lines (desk : Desk) (moves : List Move) : List Line :=
  moves.foldl Line.move (desk.map fun c => ⟨c, []⟩)

/-! ## The calculator that a line leads to -/

theorem move_call_of_none {desk : Desk} {place : Nat} (h : desk[place]? = none) (call : Call) :
    desk.move (.call place call) = (desk, none) := by
  simp only [move, h]

theorem move_call_of_some {desk : Desk} {place : Nat} {c : Calculator}
    (h : desk[place]? = some c) (call : Call) :
    desk.move (.call place call) = (desk.set place (c.answer call).1, (c.answer call).2) := by
  simp only [move, h, Calculator.answer]
  cases (Calculator.perform call).run c <;> rfl

/-- A call is answered at its place, and nothing changes elsewhere. -/
theorem move_call (desk : Desk) (place : Nat) (call : Call) :
    (desk.move (.call place call)).1 = desk.modify place fun c => (c.answer call).1 := by
  cases h : desk[place]? with
  | none =>
    rw [move_call_of_none h, List.modify_eq_self (List.getElem?_eq_none_iff.1 h)]
  | some c =>
    rw [move_call_of_some h]
    obtain ⟨hplace, rfl⟩ := List.getElem?_eq_some_iff.1 h
    rw [List.modify_eq_take_cons_drop hplace, List.set_eq_take_append_cons_drop, if_pos hplace]

theorem move_copy_of_none {desk : Desk} {place : Nat} (h : desk[place]? = none) :
    desk.move (.copy place) = (desk, none) := by
  simp only [move, h]

theorem move_copy_of_some {desk : Desk} {place : Nat} {c d : Calculator}
    (h : desk[place]? = some c) (hcopy : c.copy = .ok d) :
    desk.move (.copy place) = (desk ++ [d], none) := by
  simp only [move, h, hcopy]

/-- A copy is never refused. It stands after the last calculator and is what its
source is at that moment. -/
theorem move_copy (desk : Desk) (place : Nat) :
    desk.move (.copy place) = (desk ++ desk[place]?.toList, none) := by
  cases h : desk[place]? with
  | none => rw [move_copy_of_none h, Option.toList_none, List.append_nil]
  | some c => rw [move_copy_of_some h c.copy_eq, Option.toList_some]

theorem map_last_modify (lines : List Line) (place : Nat) (call : Call) :
    (lines.modify place (Line.add call)).map Line.last =
      (lines.map Line.last).modify place fun c => (c.answer call).1 := by
  apply List.ext_getElem?
  intro i
  rw [List.getElem?_map, List.getElem?_modify, List.getElem?_modify, List.getElem?_map]
  cases lines[i]? with
  | none => rfl
  | some line =>
    by_cases hi : place = i
    · simp [hi, Line.last_add]
    · simp [hi]

/-- One move leaves what the lines after it lead to. -/
theorem move_lines (lines : List Line) (move : Move) :
    (Desk.move (lines.map Line.last) move).1 = (Line.move lines move).map Line.last := by
  cases move with
  | call place call => rw [move_call, Line.move, map_last_modify]
  | copy place =>
    rw [move_copy, Line.move, List.map_append, List.getElem?_map]
    cases lines[place]? <;> rfl

theorem foldl_lines (lines : List Line) (moves : List Move) :
    Desk.after (lines.map Line.last) moves = (moves.foldl Line.move lines).map Line.last := by
  induction moves generalizing lines with
  | nil => rfl
  | cons move moves ih =>
    rw [after, List.foldl_cons, move_lines]
    exact ih _

/-- Every calculator is the one that its line leads to. -/
theorem after_eq (desk : Desk) (moves : List Move) :
    desk.after moves = (desk.lines moves).map Line.last := by
  have hdesk : (desk.map fun c => (⟨c, []⟩ : Line)).map Line.last = desk := by
    rw [List.map_map]
    exact List.map_id desk
  have h := foldl_lines (desk.map fun c => ⟨c, []⟩) moves
  rwa [hdesk] at h

theorem length_after (desk : Desk) (moves : List Move) :
    (desk.after moves).length = (desk.lines moves).length := by
  rw [after_eq, List.length_map]

theorem getElem?_after {desk : Desk} {moves : List Move} {place : Nat} {line : Line}
    (h : (desk.lines moves)[place]? = some line) :
    (desk.after moves)[place]? = some line.last := by
  rw [after_eq, List.getElem?_map, h]
  rfl

theorem exists_line {desk : Desk} {moves : List Move} {place : Nat} {c : Calculator}
    (h : (desk.after moves)[place]? = some c) :
    ∃ line, (desk.lines moves)[place]? = some line ∧ line.last = c := by
  rw [after_eq, List.getElem?_map] at h
  exact Option.map_eq_some_iff.1 h

/-- Every line goes back to a calculator that was at the desk at first. -/
theorem first_mem_move {desk : Desk} {lines : List Line} (h : ∀ line ∈ lines, line.first ∈ desk)
    (move : Move) : ∀ line ∈ Line.move lines move, line.first ∈ desk := by
  intro line hline
  cases move with
  | call place call =>
    obtain ⟨i, hi⟩ := List.mem_iff_getElem?.1 hline
    rw [Line.move, List.getElem?_modify] at hi
    obtain ⟨old, hold, rfl⟩ := Option.map_eq_some_iff.1 hi
    have hfirst := h old (List.mem_of_getElem? hold)
    split <;> exact hfirst
  | copy place =>
    rcases List.mem_append.1 hline with hline | hline
    · exact h line hline
    · exact h line (List.mem_of_getElem? (Option.mem_toList.1 hline))

theorem first_mem (desk : Desk) (moves : List Move) :
    ∀ line ∈ desk.lines moves, line.first ∈ desk := by
  have hnew : ∀ line ∈ desk.map (fun c => (⟨c, []⟩ : Line)), line.first ∈ desk := by
    intro line hline
    obtain ⟨c, hc, rfl⟩ := List.mem_map.1 hline
    exact hc
  unfold lines
  generalize desk.map (fun c => (⟨c, []⟩ : Line)) = start at hnew
  induction moves generalizing start with
  | nil => exact hnew
  | cons move moves ih => exact ih _ (first_mem_move hnew move)

end Desk

end Abacus
