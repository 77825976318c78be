-- What one call does to a calculator. A call adds one entry, which follows
-- from the current value alone, or it is refused; only clearing and undoing do
-- something else. A refused call never touches the history. It keeps the value
-- as well, unless it evaluates a list in which an object that is no text passes
-- for a symbol: the value is set by then, and the text to remember cannot be put
-- together. Every law of whole runs splits on these cases and never looks at the
-- steps themselves.
import Abacus.Calculator.Basic
import Abacus.Proofs.Reordering

namespace Abacus

namespace Expression

/-! ## What stands in an expression with a value -/

variable {ts : List Token} {z : Numeral}

theorem isText_of_infixValue (h : infixValue ts = .ok z) : ts.all isText = true := by
  obtain ⟨ordered, hreorder, htext, _⟩ := infixValue_eq_ok_iff.1 h
  exact isText_of_reorder hreorder htext

/-- Symbols alone have no value. -/
theorem exists_operand_of_infixValue (h : infixValue ts = .ok z) :
    ∃ t ∈ ts, isSymbol t = false := by
  obtain ⟨ordered, hreorder, _, hrun⟩ := infixValue_eq_ok_iff.1 h
  cases ordered with
  | nil => cases hrun
  | cons t rest =>
    have ht : isSymbol t = false := by
      cases t with
      | symbol symbol =>
        -- the first of all has no values to work on
        cases symbol <;> cases hrun
      | _ => rfl
    have hmem : t ∈ (t :: rest).filter (!isSymbol ·) :=
      List.mem_filter.2 ⟨List.mem_cons_self .., by rw [ht]; rfl⟩
    rw [operands_reorder hreorder] at hmem
    exact ⟨t, (List.mem_filter.1 hmem).1, ht⟩

end Expression

open Expression (infixValue isText isSymbol)

/-! ## What passes for a symbol -/

/-- The datum is no text, and is taken for a symbol all the same. -/
def Datum.passes : Datum → Bool
  | .lookalike s => (Symbol.ofText? s).isSome
  | _ => false

/-- The call evaluates no list in which something passes for a symbol. -/
def Call.plain : Call → Bool
  | .evaluate (.list ds) => ds.all (!·.passes)
  | _ => true

/-- What looks like a text is a symbol, or counts as no text at all. -/
theorem Token.isText_lookalike (s : String) :
    isText (ofDatum (.lookalike s)) = isSymbol (ofDatum (.lookalike s)) := by
  rw [ofDatum]
  cases Symbol.ofText? s <;> rfl

theorem Datum.text_or_passes {d : Datum} (h : isText (Token.ofDatum d) = true) :
    (∃ s, d = .text s) ∨ d.passes = true := by
  cases d with
  | text s => exact .inl ⟨s, rfl⟩
  | lookalike s =>
    rw [Token.ofDatum] at h
    rw [passes]
    cases hs : Symbol.ofText? s with
    | some _ => exact .inr rfl
    | none =>
      rw [hs] at h
      cases h
  | _ => cases h

/-- An expression that looks like a text has no value: none of its operands is
text. -/
theorem Datum.infixValue_lookalike {s : String} {tokens : List Token} {z : Numeral}
    (ht : (lookalike s).tokens = .ok tokens) : infixValue tokens ≠ .ok z := by
  cases ht
  intro hz
  obtain ⟨t, hmem, hsymbol⟩ := Expression.exists_operand_of_infixValue hz
  have htext := List.all_eq_true.1 (Expression.isText_of_infixValue hz) t hmem
  obtain ⟨d, hd, rfl⟩ := List.mem_map.1 hmem
  obtain ⟨c, _, rfl⟩ := List.mem_map.1 hd
  rw [Token.isText_lookalike, hsymbol] at htext
  cases htext

/-! ## The text to remember -/

/-- Exactly texts are read as texts. -/
theorem Datum.mapM_toText {ds : List Datum} {texts : List String} :
    ds.mapM toText = .ok texts ↔ ds = texts.map .text := by
  constructor
  · intro h
    induction ds generalizing texts with
    | nil =>
      cases h
      rfl
    | cons d ds ih =>
      rw [List.mapM_cons] at h
      obtain ⟨s, hs, h⟩ := exists_of_bind_ok h
      obtain ⟨rest, hrest, h⟩ := exists_of_bind_ok h
      cases h
      cases d with
      | text s =>
        cases hs
        rw [ih hrest, List.map_cons]
      | _ => cases hs
  · rintro rfl
    rw [List.mapM_map]
    exact (List.mapM_pure ..).trans (congrArg pure (List.map_id' texts))

namespace Calculator

/-- Tokens are remembered with one space between them, if all of them are text. -/
theorem sourceText_list_iff {ds : List Datum} {source : String} :
    sourceText (.list ds) = .ok source ↔
      ∃ texts : List String, ds = texts.map .text ∧ " ".intercalate texts = source := by
  constructor
  · intro h
    obtain ⟨texts, htexts, h⟩ := exists_of_bind_ok (show ds.mapM Datum.toText >>= _ = _ from h)
    cases h
    exact ⟨texts, Datum.mapM_toText.1 htexts, rfl⟩
  · rintro ⟨texts, rfl, rfl⟩
    show (texts.map Datum.text).mapM Datum.toText >>= _ = _
    rw [Datum.mapM_toText.2 rfl]
    rfl

theorem texts_of_isText {ds : List Datum} (h : (ds.map Token.ofDatum).all isText = true)
    (hplain : ds.all (!·.passes) = true) : ∃ texts : List String, ds = texts.map .text := by
  induction ds with
  | nil => exact ⟨[], rfl⟩
  | cons d ds ih =>
    rw [List.map_cons, List.all_cons, Bool.and_eq_true] at h
    rw [List.all_cons, Bool.and_eq_true] at hplain
    obtain ⟨texts, rfl⟩ := ih h.2 hplain.2
    rcases Datum.text_or_passes h.1 with ⟨s, rfl⟩ | hpasses
    · exact ⟨s :: texts, rfl⟩
    · rw [hpasses] at hplain
      cases hplain.1

/-- An expression that has a value has a text to be remembered by, if nothing in it
passes for a symbol. -/
theorem exists_sourceText {expression : Datum} {tokens : List Token} {z : Numeral}
    (hplain : (Call.evaluate expression).plain = true) (ht : expression.tokens = .ok tokens)
    (hz : infixValue tokens = .ok z) : ∃ source, sourceText expression = .ok source := by
  cases expression with
  | text s => exact ⟨s, rfl⟩
  | lookalike s => exact absurd hz (Datum.infixValue_lookalike ht)
  | list ds =>
    cases ht
    obtain ⟨texts, rfl⟩ := texts_of_isText (Expression.isText_of_infixValue hz) hplain
    exact ⟨_, sourceText_list_iff.2 ⟨texts, rfl, rfl⟩⟩
  | _ => cases ht

end Calculator

/-! ## What a call adds -/

/-- The entry that a call adds to a history that ends in this value, or the
error that it is refused with. Clearing and undoing add none. -/
def Call.added? (value : Numeral) : Call → Option (Except Error Entry)
  | .operate op operand => some do
    let y ← Numeral.ofDatum operand
    let z ← op.apply value y
    return ⟨z, .operate op y⟩
  | .root => some do
    let z ← value.root
    return ⟨z, .root⟩
  | .evaluate expression => some do
    let tokens ← expression.tokens
    let z ← infixValue tokens
    let source ← Calculator.sourceText expression
    return ⟨z, .evaluate source⟩
  | .clear => none
  | .set value => some do
    let a ← Numeral.ofDatum value
    return ⟨a, .set a⟩
  | .undo => none

/-- The value that the call sets before it is refused, if it comes to that. -/
def Call.stray? : Call → Option Numeral
  | .evaluate expression =>
    match Calculator.sourceText expression with
    | .ok _ => none
    | .error _ => (expression.tokens >>= infixValue).toOption
  | _ => none

theorem Call.stray?_of_plain {call : Call} (h : call.plain = true) : call.stray? = none := by
  cases call with
  | evaluate expression =>
    rw [stray?]
    cases hs : Calculator.sourceText expression with
    | ok source => rfl
    | error e =>
      cases hv : expression.tokens >>= infixValue with
      | error f => rfl
      | ok z =>
        obtain ⟨tokens, ht, hz⟩ := exists_of_bind_ok hv
        obtain ⟨source, hsource⟩ := Calculator.exists_sourceText h ht hz
        rw [hs] at hsource
        cases hsource
  | _ => rfl

namespace Calculator

/-- The calculator with one more entry, and the value of that entry. -/
def push (c : Calculator) (e : Entry) : Calculator := ⟨e.value, e :: c.history⟩

/-- The calculator with the value that a refused call leaves, if it leaves one. -/
def stopped (c : Calculator) (stray : Option Numeral) : Calculator :=
  ⟨stray.getD c.value, c.history⟩

/-- How a call ends that adds this entry, or is refused with this error. -/
def conclude (c : Calculator) (stray : Option Numeral) :
    Except Error Entry → EStateM.Result Error Calculator Unit
  | .ok e => .ok () (c.push e)
  | .error e => .error e (c.stopped stray)

/-- A call that adds an entry does only that. One that is refused has changed
nothing by then but the value, and that only where it is set before the last thing
that could go wrong. -/
theorem run_perform {c : Calculator} {call : Call} {outcome : Except Error Entry}
    (h : call.added? c.value = some outcome) :
    (perform call).run c = c.conclude call.stray? outcome := by
  cases call with
  | operate op operand =>
    cases h
    show (operate op operand).run c = _
    unfold operate
    cases Numeral.ofDatum operand with
    | error e => rfl
    | ok y =>
      show ((ofExcept (op.apply c.value y) : EStateM Error Calculator Numeral) >>= _).run c =
        c.conclude none (op.apply c.value y >>= _)
      cases op.apply c.value y with
      | error e => rfl
      | ok z => rfl
  | root =>
    cases h
    show root.run c = _
    unfold root
    show ((ofExcept c.value.root : EStateM Error Calculator Numeral) >>= _).run c = _
    cases c.value.root with
    | error e => rfl
    | ok z => rfl
  | evaluate expression =>
    cases h
    show (evaluate expression).run c = _
    rw [evaluate, Call.stray?]
    cases expression.tokens with
    | error e => cases sourceText expression <;> rfl
    | ok tokens =>
      show ((ofExcept (infixValue tokens) : EStateM Error Calculator Numeral) >>= _).run c =
        c.conclude (match sourceText expression with
          | .ok _ => none
          | .error _ => (infixValue tokens).toOption) (infixValue tokens >>= _)
      cases infixValue tokens with
      | error e => cases sourceText expression <;> rfl
      | ok z => cases sourceText expression <;> rfl
  | clear => cases h
  | set value =>
    cases h
    show (set value).run c = _
    unfold set
    cases Numeral.ofDatum value with
    | error e => rfl
    | ok a => rfl
  | undo => cases h

/-! ## The cases of a call -/

/-- The calculator after a call, and the error if the call was refused. -/
def answer (c : Calculator) (call : Call) : Calculator × Option Error :=
  match (perform call).run c with
  | .ok _ d => (d, none)
  | .error e d => (d, some e)

theorem answer_of_ok {c : Calculator} {call : Call} {e : Entry}
    (h : call.added? c.value = some (.ok e)) : c.answer call = (c.push e, none) := by
  rw [answer, run_perform h, conclude]

theorem answer_of_error {c : Calculator} {call : Call} {e : Error}
    (h : call.added? c.value = some (.error e)) :
    c.answer call = (c.stopped call.stray?, some e) := by
  rw [answer, run_perform h, conclude]

theorem answer_undo {c : Calculator} {newest last : Entry} {before : List Entry}
    (h : c.history = newest :: last :: before) :
    c.answer .undo = (⟨last.value, last :: before⟩, none) := by
  obtain ⟨value, history⟩ := c
  cases h
  rfl

theorem answer_undo_of_short {c : Calculator} (h : c.history.length ≤ 1) :
    c.answer .undo = (c, some .nothingToUndo) := by
  obtain ⟨value, history⟩ := c
  match history, h with
  | [], _ => rfl
  | [_], _ => rfl
  | _ :: _ :: _, h => simp at h

/-- What a call can come to. -/
inductive Answered (c : Calculator) : Call → Calculator × Option Error → Prop
  | recorded {call : Call} {e : Entry} : call.added? c.value = some (.ok e) →
      Answered c call (c.push e, none)
  | refused {call : Call} {e : Error} : call.added? c.value = some (.error e) →
      Answered c call (c.stopped call.stray?, some e)
  | cleared : Answered c .clear (⟨.zero, [⟨.zero, .clear⟩]⟩, none)
  | undone {newest last : Entry} {before : List Entry} :
      c.history = newest :: last :: before → Answered c .undo (⟨last.value, last :: before⟩, none)
  | nothingToUndo : c.history.length ≤ 1 → Answered c .undo (c, some .nothingToUndo)

theorem answered (c : Calculator) (call : Call) : Answered c call (c.answer call) := by
  cases h : call.added? c.value with
  | some outcome =>
    cases outcome with
    | ok e =>
      rw [answer_of_ok h]
      exact .recorded h
    | error e =>
      rw [answer_of_error h]
      exact .refused h
  | none =>
    cases call with
    | clear => exact .cleared
    | undo =>
      match hh : c.history with
      | newest :: last :: before =>
        rw [answer_undo hh]
        exact .undone hh
      | [] | [_] =>
        have hshort : c.history.length ≤ 1 := by simp [hh]
        rw [answer_undo_of_short hshort]
        exact .nothingToUndo hshort
    | _ => cases h

end Calculator

end Abacus
