-- Histories replay. The oldest entry of a history is that of a new calculator
-- or of a clearing, and every later one is what its call gives once more, from
-- the value of the entry before it. An evaluation also comes to its value from
-- the text that it is remembered by, unless that was put together from tokens
-- with a minus in an operand. All this is so as long as nothing that is evaluated
-- passes for a symbol.
import Abacus.Proofs.Joined
import Abacus.Proofs.Calculator.Lines

namespace Abacus.Calculator

open Expression (infixValue)

/-! ## Entries that replay -/

/-- The call, from this value, gives this entry, and what the entry holds is
enough to find its value again. -/
inductive Replayed (value : Numeral) : Call → Entry → Prop
  | operate {op : Operator} {operand : Datum} {y z : Numeral} :
      Numeral.ofDatum operand = .ok y → op.apply value y = .ok z →
      Replayed value (.operate op operand) ⟨z, .operate op y⟩
  | root {z : Numeral} : value.root = .ok z → Replayed value .root ⟨z, .root⟩
  | set {d : Datum} {a : Numeral} : Numeral.ofDatum d = .ok a →
      Replayed value (.set d) ⟨a, .set a⟩
  | text {s : String} {z : Numeral} : (Datum.text s).tokens >>= infixValue = .ok z →
      Replayed value (.evaluate (.text s)) ⟨z, .evaluate s⟩
  | tokens {texts : List String} {z : Numeral} :
      (Datum.list (texts.map .text)).tokens >>= infixValue = .ok z →
      ((∀ s ∈ texts, Symbol.ofText? s = none → '-' ∉ s.toList) →
        (Datum.text (" ".intercalate texts)).tokens >>= infixValue = .ok z) →
      Replayed value (.evaluate (.list (texts.map .text)))
        ⟨z, .evaluate (" ".intercalate texts)⟩

/-- The first entry is that of a new calculator or of a clearing, and these
steps give the entries after it, one for each. Entries and steps stand with the
newest first. -/
inductive Replays : List Entry → List Call → Prop
  | init (a : Numeral) : Replays [⟨a, .init a⟩] []
  | clear : Replays [⟨.zero, .clear⟩] []
  | step {e last : Entry} {before : List Entry} {call : Call} {steps : List Call} :
      Replays (last :: before) steps → Replayed last.value call e →
      Replays (e :: last :: before) (call :: steps)

/-! ## One call -/

theorem replayed_evaluate {expression : Datum} {tokens : List Token} {value z : Numeral}
    {source : String} (ht : expression.tokens = .ok tokens) (hz : infixValue tokens = .ok z)
    (hs : sourceText expression = .ok source) :
    Replayed value (.evaluate expression) ⟨z, .evaluate source⟩ := by
  have hvalue : expression.tokens >>= infixValue = .ok z := by
    rw [ht]
    exact hz
  cases expression with
  | text s =>
    cases hs
    exact .text hvalue
  | lookalike s => exact absurd hz (Datum.infixValue_lookalike ht)
  | list ds =>
    cases ht
    obtain ⟨texts, rfl, rfl⟩ := sourceText_list_iff.1 hs
    refine .tokens hvalue (Expression.infixValue_joined ?_)
    rwa [Datum.tokens_texts] at hvalue
  | _ => cases ht

/-- What a call adds can be replayed. -/
theorem replayed_of_added? {value : Numeral} {call : Call} {e : Entry}
    (h : call.added? value = some (.ok e)) : Replayed value call e := by
  cases call with
  | operate op operand =>
    obtain ⟨y, hy, h⟩ := exists_of_bind_ok (Option.some.inj h)
    obtain ⟨z, hz, h⟩ := exists_of_bind_ok h
    cases h
    exact .operate hy hz
  | root =>
    obtain ⟨z, hz, h⟩ := exists_of_bind_ok (Option.some.inj h)
    cases h
    exact .root hz
  | evaluate expression =>
    obtain ⟨tokens, ht, h⟩ := exists_of_bind_ok (Option.some.inj h)
    obtain ⟨z, hz, h⟩ := exists_of_bind_ok h
    obtain ⟨source, hs, h⟩ := exists_of_bind_ok h
    cases h
    exact replayed_evaluate ht hz hs
  | set d =>
    obtain ⟨a, ha, h⟩ := exists_of_bind_ok (Option.some.inj h)
    cases h
    exact .set ha
  | clear | undo => cases h

/-- One call keeps a history that replays with the steps that stand. -/
theorem Replays.next {c : Calculator} {s : Standing} (hc : c.Agrees)
    (h : Replays c.history s.steps) (call : Call) :
    Replays (c.answer call).1.history (s.next (call, (c.answer call).2.isSome)).steps := by
  have hcase := answered c call
  generalize c.answer call = result at hcase
  cases hcase with
  | recorded hadd =>
    obtain ⟨last, before, hhistory, hvalue⟩ := hc
    rw [hhistory] at h
    rw [hvalue] at hadd
    rw [Option.isSome_none, Standing.next_of_step (step_of_added? hadd), Calculator.push, hhistory]
    exact .step h (replayed_of_added? hadd)
  | refused _ => exact h
  | cleared => exact .clear
  | undone hhistory =>
    -- the last of the steps gave the newest entry, and both go
    obtain ⟨cleared, steps⟩ := s
    rw [hhistory] at h
    cases h with
    | step hbefore _ => exact hbefore
  | nothingToUndo _ => exact h

/-- So does a run. -/
theorem Replays.run {c : Calculator} {s : Standing} (hc : c.Agrees)
    (h : Replays c.history s.steps) {calls : List Call}
    (hplain : ∀ call ∈ calls, call.plain = true) :
    Replays (c.after calls).history ((c.marks calls).foldl Standing.next s).steps := by
  induction calls generalizing c s with
  | nil => exact h
  | cons call calls ih =>
    obtain ⟨hcall, hcalls⟩ := List.forall_mem_cons.1 hplain
    exact ih (agrees_answer hcall hc) (h.next hc call) hcalls

end Abacus.Calculator
