-- Copies stand apart. A copy goes on from the line of its source and then
-- follows its own calls alone, and so does its source. That stays so where the
-- histories are changed in place, as long as no two calculators write on one
-- page.
import Abacus.Proofs.Calculator.Lines

namespace Abacus

/-! ## The calls to one place -/

/-- What the moves ask of the calculator at a place. -/
def callsTo (place : Nat) (moves : List Move) : List Call :=
  moves.filterMap fun
    | .call there call => if there = place then some call else none
    | .copy _ => none

theorem callsTo_cons (place : Nat) (move : Move) (moves : List Move) :
    callsTo place (move :: moves) = callsTo place [move] ++ callsTo place moves :=
  List.filterMap_append (l := [move])

/-- The line with more calls at its end. -/
def Line.extend (line : Line) (calls : List Call) : Line := ⟨line.first, line.calls ++ calls⟩

namespace Line

theorem extend_nil (line : Line) : line.extend [] = line := by
  rw [extend, List.append_nil]

theorem extend_append (line : Line) (as bs : List Call) :
    line.extend (as ++ bs) = (line.extend as).extend bs := by
  rw [extend, extend, extend, List.append_assoc]

theorem last_extend (line : Line) (calls : List Call) :
    (line.extend calls).last = line.last.after calls := by
  rw [last, extend, Calculator.after_append]
  rfl

/-- A move gives a line that is there the calls to its place. -/
theorem getElem?_move {lines : List Line} {place : Nat} {line : Line}
    (h : lines[place]? = some line) (move : Move) :
    (Line.move lines move)[place]? = some (line.extend (callsTo place [move])) := by
  cases move with
  | call there call =>
    rw [Line.move, List.getElem?_modify, h]
    by_cases hplace : there = place
    · simp [callsTo, hplace, add, extend]
    · simp [callsTo, hplace, extend]
  | copy there =>
    have hlt := (List.getElem?_eq_some_iff.1 h).1
    rw [Line.move, List.getElem?_append_left hlt, h]
    exact congrArg some (extend_nil line).symm

theorem getElem?_foldl_move {lines : List Line} {place : Nat} {line : Line}
    (h : lines[place]? = some line) (moves : List Move) :
    (moves.foldl Line.move lines)[place]? = some (line.extend (callsTo place moves)) := by
  induction moves generalizing lines line with
  | nil => rw [List.foldl_nil, h, callsTo, List.filterMap_nil, extend_nil]
  | cons move moves ih =>
    rw [List.foldl_cons, ih (getElem?_move h move), ← extend_append, ← callsTo_cons]

end Line

namespace Desk

variable {desk : Desk} {before : List Move} {place : Nat} {line : Line}

/-- A line goes on with the calls to its place, whatever else moves. -/
theorem lines_append (h : (desk.lines before)[place]? = some line) (more : List Move) :
    (desk.lines (before ++ more))[place]? = some (line.extend (callsTo place more)) := by
  rw [lines, List.foldl_append]
  exact Line.getElem?_foldl_move h more

/-- A copy starts with the line of its source. -/
theorem lines_copy {source : Nat} (h : (desk.lines before)[source]? = some line)
    (more : List Move) :
    (desk.lines (before ++ .copy source :: more))[(desk.lines before).length]? =
      some (line.extend (callsTo (desk.lines before).length more)) := by
  have hcopied : (desk.lines (before ++ [.copy source]))[(desk.lines before).length]? =
      some line := by
    rw [lines, List.foldl_append]
    show (desk.lines before ++ (desk.lines before)[source]?.toList)[_]? = _
    rw [h, Option.toList_some, List.getElem?_concat_length]
  have hmoves := lines_append hcopied more
  rwa [List.append_assoc] at hmoves

theorem after_copy {source : Nat} (h : (desk.lines before)[source]? = some line)
    (more : List Move) :
    (desk.after (before ++ .copy source :: more))[(desk.after before).length]? =
      some (line.extend (callsTo (desk.after before).length more)).last := by
  rw [length_after]
  exact getElem?_after (lines_copy h more)

end Desk

/-! ## Undoing past the copying -/

/-- Undoing goes back through the history, as far as there are entries. Each time
the value comes from the entry that is newest then. -/
theorem Calculator.after_undos {c : Calculator} {k : Nat} (hk : k < c.history.length) :
    ∃ entry, c.history[k]? = some entry ∧
      c.after (List.replicate k .undo) =
        ⟨if k = 0 then c.value else entry.value, c.history.drop k⟩ := by
  induction k generalizing c with
  | zero => exact ⟨c.history[0], List.getElem?_eq_getElem hk, rfl⟩
  | succ k ih =>
    obtain ⟨value, history⟩ := c
    match history, hk with
    | newest :: last :: below, hk =>
      have hundo := answer_undo (c := ⟨value, newest :: last :: below⟩) rfl
      obtain ⟨entry, hentry, hafter⟩ :=
        @ih ⟨last.value, last :: below⟩ (Nat.lt_of_succ_lt_succ hk)
      refine ⟨entry, hentry, ?_⟩
      rw [List.replicate_succ, after, List.foldl_cons, hundo]
      refine hafter.trans ?_
      -- the last undoing of all has taken the value of the entry it ends at
      cases k with
      | zero =>
        cases hentry
        rfl
      | succ k => rfl

/-! ## Histories changed in place -/

/-- A calculator that keeps its history on a page. -/
structure Seat where
  value : Numeral
  page : Nat

/-- Calculators side by side, and the book with the pages of them all. A call
writes on the page of its calculator. -/
structure Table where
  seats : List Seat
  book : List (List Entry)

namespace Table

/-- The calculator at a seat, with the history that its page holds by now. -/
def look (table : Table) (seat : Seat) : Calculator :=
  ⟨seat.value, table.book[seat.page]?.getD []⟩

/-- The calculators as they look by now. -/
def desk (table : Table) : Desk := table.seats.map table.look

/-- The page of each calculator. -/
def pages (table : Table) : List Nat := table.seats.map Seat.page

/-- A table where the calculators of a desk each have a page. -/
def ofDesk (desk : Desk) : Table where
  seats := desk.mapIdx fun page c => ⟨c.value, page⟩
  book := desk.map Calculator.history

/-- Changes a calculator, and its history on the page where it stands. -/
def write (table : Table) (place page : Nat) (c : Calculator) : Table where
  seats := table.seats.set place ⟨c.value, page⟩
  book := table.book.set page c.history

/-- Seats a copy. It opens a page for its first entry, like any new calculator,
and then keeps to another one, with the history taken over. -/
def seatCopy (table : Table) (c : Calculator) : Table where
  seats := table.seats ++ [⟨c.value, table.book.length + 1⟩]
  book := table.book ++ [[⟨c.value, .init c.value⟩], c.history]

/-- The table after a move. -/
def move (table : Table) : Move → Table
  | .call place call =>
    match table.seats[place]? with
    | none => table
    | some seat => table.write place seat.page ((table.look seat).answer call).1
  | .copy place =>
    match table.seats[place]? with
    | none => table
    | some seat => table.seatCopy (table.look seat)

/-- The table after some moves. -/
def after (table : Table) (moves : List Move) : Table := moves.foldl move table

/-- Every calculator has a page, and no two have the same one. -/
structure Apart (table : Table) : Prop where
  bound : ∀ page ∈ table.pages, page < table.book.length
  own : table.pages.Nodup

variable {table : Table} {place : Nat} {seat : Seat}

theorem getElem?_pages (h : table.seats[place]? = some seat) :
    table.pages[place]? = some seat.page := by
  rw [pages, List.getElem?_map, h]
  rfl

theorem getElem?_desk (h : table.seats[place]? = some seat) :
    table.desk[place]? = some (table.look seat) := by
  rw [desk, List.getElem?_map, h]
  rfl

theorem getElem?_desk_of_none (h : table.seats[place]? = none) : table.desk[place]? = none := by
  rw [desk, List.getElem?_map, h]
  rfl

theorem Apart.lt (h : table.Apart) (hseat : table.seats[place]? = some seat) :
    seat.page < table.book.length :=
  h.bound _ (List.mem_of_getElem? (getElem?_pages hseat))

/-! ### New pages -/

theorem pages_ofDesk (desk : Desk) : (ofDesk desk).pages = List.range desk.length := by
  apply List.ext_getElem
  · simp [pages, ofDesk]
  · intro i _ _
    simp [pages, ofDesk]

theorem apart_ofDesk (desk : Desk) : (ofDesk desk).Apart where
  bound page h := by
    rw [pages_ofDesk, List.mem_range] at h
    rwa [ofDesk, List.length_map]
  own := by
    rw [pages_ofDesk]
    exact List.nodup_range

theorem desk_ofDesk (desk : Desk) : (ofDesk desk).desk = desk := by
  apply List.ext_getElem
  · simp [Table.desk, ofDesk]
  · intro i _ hi
    simp [Table.desk, ofDesk, look, hi]

theorem pages_seatCopy (table : Table) (c : Calculator) :
    (table.seatCopy c).pages = table.pages ++ [table.book.length + 1] := by
  rw [pages, seatCopy, List.map_append]
  rfl

theorem Apart.seatCopy (h : table.Apart) (c : Calculator) : (table.seatCopy c).Apart where
  bound page hpage := by
    rw [pages_seatCopy, List.mem_append, List.mem_singleton] at hpage
    have hlength : (table.seatCopy c).book.length = table.book.length + 2 := List.length_append
    rcases hpage with hold | rfl
    · have hlt := h.bound page hold
      omega
    · omega
  own := by
    rw [pages_seatCopy, List.nodup_append]
    refine ⟨h.own, List.pairwise_singleton _ _, ?_⟩
    intro page hpage new hnew heq
    have hlt := h.bound page hpage
    rw [List.mem_singleton] at hnew
    omega

/-- The seat of a copy shows the calculator that copying gives. -/
theorem look_seatCopy (table : Table) {c d : Calculator} (h : c.copy = .ok d) :
    (table.seatCopy c).look ⟨c.value, table.book.length + 1⟩ = d := by
  rw [c.copy_eq] at h
  cases h
  simp [look, seatCopy]

/-- The pages that are there stay as they are when a copy opens its own. -/
theorem desk_seatCopy (h : table.Apart) {c d : Calculator} (hcopy : c.copy = .ok d) :
    (table.seatCopy c).desk = table.desk ++ [d] := by
  have hold : ∀ seat ∈ table.seats, (table.seatCopy c).look seat = table.look seat := by
    intro seat hseat
    have hlt := h.bound _ (List.mem_map_of_mem hseat)
    rw [look, look, Table.seatCopy, List.getElem?_append_left hlt]
  show (table.seats ++ [_]).map _ = _
  rw [List.map_append, List.map_congr_left hold, List.map_singleton, table.look_seatCopy hcopy]
  rfl

/-! ### Pages written on -/

theorem pages_write (h : table.seats[place]? = some seat) (c : Calculator) :
    (table.write place seat.page c).pages = table.pages := by
  obtain ⟨_, hpage⟩ := List.getElem?_eq_some_iff.1 (getElem?_pages h)
  show (table.seats.set place ⟨c.value, seat.page⟩).map Seat.page = table.pages
  rw [List.map_set]
  show table.pages.set place seat.page = table.pages
  rw [← hpage, List.set_getElem_self]

theorem Apart.write (h : table.Apart) (hseat : table.seats[place]? = some seat)
    (c : Calculator) : (table.write place seat.page c).Apart where
  bound page hpage := by
    rw [pages_write hseat] at hpage
    rw [Table.write, List.length_set]
    exact h.bound page hpage
  own := by
    rw [pages_write hseat]
    exact h.own

theorem look_write_self (h : seat.page < table.book.length) (c : Calculator) :
    (table.write place seat.page c).look ⟨c.value, seat.page⟩ = c := by
  rw [look, write, List.getElem?_set_self h]
  rfl

theorem look_write_of_ne {page : Nat} (h : page ≠ seat.page) (c : Calculator) :
    (table.write place page c).look seat = table.look seat := by
  rw [look, look, write, List.getElem?_set_ne h]

/-- Nobody else reads the page that is written on. -/
theorem desk_write (h : table.Apart) (hseat : table.seats[place]? = some seat)
    (c : Calculator) : (table.write place seat.page c).desk = table.desk.set place c := by
  apply List.ext_getElem?
  intro i
  by_cases hi : place = i
  · subst hi
    have hplace := (List.getElem?_eq_some_iff.1 (getElem?_desk hseat)).1
    rw [List.getElem?_set_self hplace]
    have hnow : (table.write place seat.page c).seats[place]? = some ⟨c.value, seat.page⟩ :=
      List.getElem?_set_self (List.getElem?_eq_some_iff.1 hseat).1
    rw [getElem?_desk hnow, look_write_self (h.lt hseat)]
  · rw [List.getElem?_set_ne hi]
    have hsame : (table.write place seat.page c).seats[i]? = table.seats[i]? :=
      List.getElem?_set_ne hi
    cases hother : table.seats[i]? with
    | none => rw [getElem?_desk_of_none hother, getElem?_desk_of_none (hsame.trans hother)]
    | some other =>
      have hpage : seat.page ≠ other.page := by
        intro heq
        have hlt := (List.getElem?_eq_some_iff.1 (getElem?_pages hseat)).1
        apply hi
        rw [← List.getElem?_inj hlt h.own, getElem?_pages hseat, getElem?_pages hother, heq]
      rw [getElem?_desk hother, getElem?_desk (hsame.trans hother), look_write_of_ne hpage]

/-! ### Runs -/

theorem apart_move (h : table.Apart) (move : Move) : (table.move move).Apart := by
  cases move with
  | call place call =>
    cases hseat : table.seats[place]? with
    | none => simpa only [Table.move, hseat] using h
    | some seat => simpa only [Table.move, hseat] using h.write hseat _
  | copy place =>
    cases hseat : table.seats[place]? with
    | none => simpa only [Table.move, hseat] using h
    | some seat => simpa only [Table.move, hseat] using h.seatCopy _

theorem desk_move (h : table.Apart) (move : Move) :
    (table.move move).desk = (table.desk.move move).1 := by
  cases move with
  | call place call =>
    cases hseat : table.seats[place]? with
    | none => rw [Table.move, hseat, Desk.move_call_of_none (getElem?_desk_of_none hseat)]
    | some seat => rw [Table.move, hseat, Desk.move_call_of_some (getElem?_desk hseat), desk_write h hseat]
  | copy place =>
    cases hseat : table.seats[place]? with
    | none => rw [Table.move, hseat, Desk.move_copy_of_none (getElem?_desk_of_none hseat)]
    | some seat =>
      have hcopy := (table.look seat).copy_eq
      rw [Table.move, hseat, Desk.move_copy_of_some (getElem?_desk hseat) hcopy,
        desk_seatCopy h hcopy]

/-- Where no two calculators have one page, what each one shows after a run is
what it would show if the histories were never changed in place. -/
theorem desk_after (h : table.Apart) (moves : List Move) :
    (table.after moves).Apart ∧ (table.after moves).desk = table.desk.after moves := by
  induction moves generalizing table with
  | nil => exact ⟨h, rfl⟩
  | cons move moves ih =>
    have hrest := ih (apart_move h move)
    rw [desk_move h] at hrest
    exact hrest

end Table

/-! ## The laws -/

namespace Desk

variable {desk : Desk} {before : List Move}

/-- Moves elsewhere change nothing at a place. -/
theorem after_of_no_calls {place : Nat} {c : Calculator} {more : List Move}
    (h : (desk.after before)[place]? = some c) (hmore : callsTo place more = []) :
    (desk.after (before ++ more))[place]? = some c := by
  obtain ⟨line, hline, rfl⟩ := exists_line h
  have hlater := getElem?_after (lines_append hline more)
  rwa [hmore, Line.extend_nil] at hlater

/-- Calculators are called and copied in any order. Then each one is what its
line alone leads to from a new calculator, and answers as that one does. More
moves add to its line what they call at its place, and if they call nothing
there, it stays as it is. A copy goes on from the line of its source with the
calls to its own place, and undoing leads it back through the history that it
took over. The same desk comes about where histories are changed in place, and
then no two calculators write on one page. -/
theorem copies_stand_apart (h : ∀ c ∈ desk, ∃ initial, Calculator.start initial = .ok c)
    (before more : List Move) :
    (desk.after before = (desk.lines before).map Line.last ∧
        ∀ line ∈ desk.lines before, ∃ initial, Calculator.start initial = .ok line.first) ∧
      (∀ place line, (desk.lines before)[place]? = some line →
        (∀ call, ((desk.after before).move (.call place call)).2 = (line.last.answer call).2) ∧
        (desk.after (before ++ more))[place]? = some (line.extend (callsTo place more)).last) ∧
      (∀ place c, (desk.after before)[place]? = some c → callsTo place more = [] →
        (desk.after (before ++ more))[place]? = some c) ∧
      (∀ source line, (desk.lines before)[source]? = some line →
        ((desk.after before).move (.copy source)).2 = none ∧
        (desk.after (before ++ .copy source :: more))[(desk.after before).length]? =
          some (line.extend (callsTo (desk.after before).length more)).last) ∧
      (∀ source c k, (desk.after before)[source]? = some c → k < c.history.length →
        callsTo (desk.after before).length more = List.replicate k .undo →
        ∃ entry, c.history[k]? = some entry ∧
          (desk.after (before ++ .copy source :: more))[(desk.after before).length]? =
            some ⟨if k = 0 then c.value else entry.value, c.history.drop k⟩) ∧
      ((Table.ofDesk desk).after before).Apart ∧
        ((Table.ofDesk desk).after before).desk = desk.after before := by
  have hfirst : ∀ line ∈ desk.lines before, ∃ initial, Calculator.start initial = .ok line.first :=
    fun line hline => h _ (first_mem desk before line hline)
  refine ⟨⟨after_eq desk before, hfirst⟩, ?_, fun _ _ => after_of_no_calls, ?_, ?_, ?_⟩
  · intro place line hline
    refine ⟨fun call => ?_, getElem?_after (lines_append hline more)⟩
    rw [move_call_of_some (getElem?_after hline)]
  · intro source line hline
    refine ⟨?_, after_copy hline more⟩
    rw [move_copy]
  · intro source c k hsource hk hcalls
    obtain ⟨line, hline, rfl⟩ := exists_line hsource
    obtain ⟨entry, hentry, hundone⟩ := Calculator.after_undos hk
    refine ⟨entry, hentry, ?_⟩
    rw [after_copy hline more, hcalls, Line.last_extend, hundone]
  · have hpages := Table.desk_after (Table.apart_ofDesk desk) before
    rwa [Table.desk_ofDesk] at hpages

/-- A calculator at one is set to seven and copied. Then it is cleared, and the
copy goes back past the copying. -/
theorem a_copy_goes_back_past_the_copying :
    let first : Calculator := ⟨.one, [⟨.one, .init .one⟩]⟩
    let before : List Move := [.call 0 (.set (.text "7"))]
    let more : List Move :=
      [.call 0 .clear, .call 1 .undo, .call 0 (.operate .divide (.text "0"))]
    (after [first] (before ++ .copy 0 :: more))[0]? = some ⟨.zero, [⟨.zero, .clear⟩]⟩ ∧
      (after [first] (before ++ .copy 0 :: more))[1]? = some first := by
  intro first before more
  have hnew : ∀ c ∈ [first], ∃ initial, Calculator.start initial = .ok c := by
    intro c hc
    cases List.mem_singleton.1 hc
    exact ⟨.numeral .one, rfl⟩
  obtain ⟨_, hplaces, _⟩ := copies_stand_apart hnew before (.copy 0 :: more)
  obtain ⟨_, _, _, _, hundo, _⟩ := copies_stand_apart hnew before more
  obtain ⟨entry, hentry, hback⟩ := hundo 0 _ 1 rfl (by decide) rfl
  cases hentry
  exact ⟨(hplaces 0 _ rfl).2, hback⟩

end Desk

end Abacus
