-- Undoing erases. Which calls of a run stand is worked out from the calls and
-- from which of them were refused, without a calculator. The calls that stand,
-- run by themselves, lead to the same value and the same history, as long as
-- nothing that is evaluated passes for a symbol.
import Abacus.Proofs.Calculator.Run

namespace Abacus.Calculator

/-! ## What stands of a run -/

/-- The calls of a run that still count. -/
structure Standing where
  /-- The last clearing comes before the steps. -/
  cleared : Bool
  /-- The steps that can be undone, the newest first. -/
  steps : List Call

namespace Standing

/-- What stands after one call more, which was refused or not. -/
def next (s : Standing) : Call × Bool → Standing
  | (_, true) => s
  | (.clear, false) => ⟨true, []⟩
  | (.undo, false) => ⟨s.cleared, s.steps.tail⟩
  | (call, false) => ⟨s.cleared, call :: s.steps⟩

/-- The calls that stand, as a run. -/
def calls (s : Standing) : List Call := (if s.cleared then [.clear] else []) ++ s.steps.reverse

theorem next_of_step {s : Standing} {call : Call} (h : call ≠ .clear ∧ call ≠ .undo) :
    s.next (call, false) = ⟨s.cleared, call :: s.steps⟩ := by
  cases call with
  | clear => exact absurd rfl h.1
  | undo => exact absurd rfl h.2
  | _ => rfl

theorem calls_cons (cleared : Bool) (call : Call) (steps : List Call) :
    calls ⟨cleared, call :: steps⟩ = calls ⟨cleared, steps⟩ ++ [call] := by
  simp [calls]

end Standing

/-- The calls of a run, each with whether it was refused. -/
def marks (c : Calculator) (calls : List Call) : List (Call × Bool) :=
  calls.zip ((c.trace calls).map (·.2.isSome))

theorem marks_cons (c : Calculator) (call : Call) (calls : List Call) :
    c.marks (call :: calls) = (call, (c.answer call).2.isSome) :: (c.answer call).1.marks calls :=
  rfl

theorem marks_append (c : Calculator) (as bs : List Call) :
    c.marks (as ++ bs) = c.marks as ++ (c.after as).marks bs := by
  induction as generalizing c with
  | nil => rfl
  | cons a as ih =>
    rw [List.cons_append, marks_cons, ih, marks_cons, List.cons_append]
    rfl

/-- A run without refusals keeps the value in the newest entry. -/
theorem agrees_of_marks {c : Calculator} (h : c.Agrees) {calls : List Call}
    (haccepted : ∀ mark ∈ c.marks calls, mark.2 = false) : (c.after calls).Agrees := by
  induction calls generalizing c with
  | nil => exact h
  | cons call calls ih =>
    rw [marks_cons] at haccepted
    obtain ⟨hcall, hcalls⟩ := List.forall_mem_cons.1 haccepted
    exact ih (agrees_of_accepted (by simpa using hcall)) hcalls

/-! ## The invariant of a run -/

/-- The calculator is the one that the standing calls lead to. None of them is
refused on the way, and each step has its own entry after the first one. -/
structure Stands (first : Calculator) (s : Standing) (c : Calculator) : Prop where
  same : first.after s.calls = c
  accepted : ∀ mark ∈ first.marks s.calls, mark.2 = false
  steps : ∀ call ∈ s.steps, call ≠ .clear ∧ call ≠ .undo
  length : c.history.length = s.steps.length + 1
  oldest : c.history.getLast? =
    some (if s.cleared then ⟨.zero, .clear⟩ else ⟨first.value, .init first.value⟩)

theorem step_of_added? {call : Call} {value : Numeral} {outcome : Except Error Entry}
    (h : call.added? value = some outcome) : call ≠ .clear ∧ call ≠ .undo := by
  constructor
  · rintro rfl
    cases h
  · rintro rfl
    cases h

/-- A step that was not refused has added its entry. -/
theorem push_of_step {c : Calculator} {call : Call} (hstep : call ≠ .clear ∧ call ≠ .undo)
    (h : (c.answer call).2 = none) : ∃ e, (c.answer call).1 = c.push e := by
  have hcase := answered c call
  generalize c.answer call = result at h hcase
  cases hcase with
  | recorded _ => exact ⟨_, rfl⟩
  | refused _ => cases h
  | cleared => exact absurd rfl hstep.1
  | undone _ => exact absurd rfl hstep.2
  | nothingToUndo _ => cases h

/-- Undoing takes back one entry, and the value it came with. -/
theorem undo_push {c : Calculator} (h : c.Agrees) (e : Entry) :
    (c.push e).answer .undo = (c, none) := by
  obtain ⟨newest, before, hh, hv⟩ := h
  obtain ⟨value, history⟩ := c
  simp only at hh hv
  subst hh hv
  exact answer_undo rfl

theorem Stands.push {first c : Calculator} {s : Standing} {call : Call} {e : Entry}
    (h : Stands first s c) (hadd : call.added? c.value = some (.ok e)) :
    Stands first ⟨s.cleared, call :: s.steps⟩ (c.push e) := by
  obtain ⟨h1, h2, h3, h4, h5⟩ := h
  refine ⟨?_, ?_, ?_, ?_, ?_⟩
  · rw [Standing.calls_cons, after_append, h1, after_singleton, answer_of_ok hadd]
  · intro mark hm
    rw [Standing.calls_cons, marks_append, h1, List.mem_append] at hm
    rcases hm with hm | hm
    · exact h2 mark hm
    · rw [marks_cons, answer_of_ok hadd] at hm
      rw [List.mem_singleton.1 hm]
      rfl
  · intro other ho
    rcases List.mem_cons.1 ho with rfl | ho
    · exact step_of_added? hadd
    · exact h3 other ho
  · rw [Calculator.push, List.length_cons, h4, List.length_cons]
  · rw [Calculator.push, List.getLast?_cons, h5]
    rfl

/-- A clearing stands by itself, whatever came before it. -/
theorem stands_clear (first : Calculator) :
    Stands first ⟨true, []⟩ ⟨.zero, [⟨.zero, .clear⟩]⟩ := by
  refine ⟨rfl, ?_, by simp, rfl, rfl⟩
  intro mark hm
  rw [List.mem_singleton.1 hm]
  rfl

/-- What undoing leaves is what the last standing step was called on. -/
theorem Stands.undo {first c : Calculator} {s : Standing} {newest last : Entry}
    {before : List Entry} (hfirst : first.Agrees) (h : Stands first s c)
    (hc : c.history = newest :: last :: before) :
    Stands first ⟨s.cleared, s.steps.tail⟩ ⟨last.value, last :: before⟩ := by
  obtain ⟨cleared, steps⟩ := s
  obtain ⟨h1, h2, h3, h4, h5⟩ := h
  cases steps with
  | nil => simp [hc] at h4
  | cons call steps =>
    rw [Standing.calls_cons, after_append, after_singleton] at h1
    rw [Standing.calls_cons, marks_append] at h2
    have hlast : ((first.after (Standing.calls ⟨cleared, steps⟩)).answer call).2 = none := by
      have := h2 _ (List.mem_append_right _ (List.mem_singleton.2 rfl))
      simpa using this
    obtain ⟨e, he⟩ := push_of_step (h3 call (List.mem_cons_self ..)) hlast
    have hbelow : ∀ mark ∈ first.marks (Standing.calls ⟨cleared, steps⟩), mark.2 = false :=
      fun mark hm => h2 mark (List.mem_append_left _ hm)
    have hbefore : first.after (Standing.calls ⟨cleared, steps⟩) = ⟨last.value, last :: before⟩ := by
      have hundo := undo_push (agrees_of_marks hfirst hbelow) e
      rw [← he, h1, answer_undo hc] at hundo
      exact (Prod.mk.inj hundo).1.symm
    refine ⟨hbefore, hbelow, ?_, ?_, ?_⟩
    · intro other ho
      exact h3 other (List.mem_cons_of_mem _ ho)
    · rw [hc, List.length_cons] at h4
      exact Nat.succ.inj h4
    · rw [hc, List.getLast?_cons_cons] at h5
      exact h5

/-- One call keeps the invariant. -/
theorem Stands.next {first c : Calculator} {s : Standing} (hfirst : first.Agrees)
    (h : Stands first s c) {call : Call} (hplain : call.plain = true) :
    Stands first (s.next (call, (c.answer call).2.isSome)) (c.answer call).1 := by
  have hcase := answered c call
  generalize c.answer call = result at hcase
  cases hcase with
  | recorded hadd =>
    rw [Option.isSome_none, Standing.next_of_step (step_of_added? hadd)]
    exact h.push hadd
  | refused _ =>
    rw [Call.stray?_of_plain hplain]
    exact h
  | cleared => exact stands_clear first
  | undone hc => exact h.undo hfirst hc
  | nothingToUndo _ => exact h

theorem Stands.run {first c : Calculator} {s : Standing} (hfirst : first.Agrees)
    (h : Stands first s c) {calls : List Call} (hplain : ∀ call ∈ calls, call.plain = true) :
    Stands first ((c.marks calls).foldl Standing.next s) (c.after calls) := by
  induction calls generalizing s c with
  | nil => exact h
  | cons call calls ih =>
    obtain ⟨hcall, hcalls⟩ := List.forall_mem_cons.1 hplain
    exact ih (h.next hfirst hcall) hcalls

end Abacus.Calculator
