-- Runs of a calculator, with refused calls among the others. Its history is
-- never empty, and a refused call never touches it. As long as no list that is
-- evaluated has something in it that passes for a symbol, the newest entry also
-- holds the current value, and a refused call leaves the value as it was.
import Abacus.Proofs.Calculator.Answer

namespace Abacus.Calculator

/-! ## Runs -/

/-- The calculator after some calls. -/
def after (c : Calculator) (calls : List Call) : Calculator :=
  calls.foldl (fun c call => (c.answer call).1) c

/-- What each call of a run left, and the error if it was refused. -/
def trace (c : Calculator) : List Call → List (Calculator × Option Error)
  | [] => []
  | call :: calls => c.answer call :: (c.answer call).1.trace calls

theorem after_append (c : Calculator) (as bs : List Call) :
    c.after (as ++ bs) = (c.after as).after bs := List.foldl_append

theorem after_singleton (c : Calculator) (call : Call) : c.after [call] = (c.answer call).1 := rfl

/-- A refused call keeps the history, and the value as well if it is plain. -/
theorem kept_of_refused {c : Calculator} {call : Call} {e : Error}
    (h : (c.answer call).2 = some e) :
    (c.answer call).1.history = c.history ∧ (call.plain = true → (c.answer call).1 = c) := by
  have hcase := answered c call
  generalize c.answer call = result at h hcase
  cases hcase with
  | recorded _ => cases h
  | refused _ =>
    refine ⟨rfl, fun hplain => ?_⟩
    rw [Call.stray?_of_plain hplain]
    rfl
  | cleared => cases h
  | undone _ => cases h
  | nothingToUndo _ => exact ⟨rfl, fun _ => rfl⟩

/-- The history is not empty, and its newest entry holds the current value. -/
def Agrees (c : Calculator) : Prop := ∃ e before, c.history = e :: before ∧ c.value = e.value

/-- After a call that is not refused it does so, whatever was before. -/
theorem agrees_of_accepted {c : Calculator} {call : Call} (h : (c.answer call).2 = none) :
    (c.answer call).1.Agrees := by
  have hcase := answered c call
  generalize c.answer call = result at h hcase
  cases hcase with
  | recorded _ => exact ⟨_, _, rfl, rfl⟩
  | refused _ => cases h
  | cleared => exact ⟨_, _, rfl, rfl⟩
  | undone _ => exact ⟨_, _, rfl, rfl⟩
  | nothingToUndo _ => cases h

theorem agrees_answer {c : Calculator} {call : Call} (hplain : call.plain = true)
    (h : c.Agrees) : (c.answer call).1.Agrees := by
  cases hanswer : (c.answer call).2 with
  | none => exact agrees_of_accepted hanswer
  | some e =>
    rw [(kept_of_refused hanswer).2 hplain]
    exact h

end Abacus.Calculator
