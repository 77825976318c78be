-- A run of operations as one expression. Each step is written around the steps
-- before it, in parentheses, and the numbers are written out. The expression
-- comes to the value of the calculator, or is refused as the first refused step
-- of the run was.
import Abacus.Proofs.Rendering
import Abacus.Proofs.Spelling
import Abacus.Proofs.Calculator.Lockstep

namespace Abacus

/-- What is written of a number is no symbol. -/
theorem Numeral.ofText?_text (a : Numeral) : Symbol.ofText? a.text = none :=
  Token.ofText?_of_numeral a.ofText_text

/-- Steps that each work on the number so far. -/
abbrev Steps := List (Operator × Numeral)

namespace Steps

/-- The steps as calls of a calculator. -/
def calls (steps : Steps) : List Call := steps.map fun s => .operate s.1 (.numeral s.2)

/-- What stands behind the steps before: an operator, a number, and the
parenthesis that closes the step. -/
def closings (steps : Steps) : List String := steps.flatMap fun s => [s.1.text, s.2.text, ")"]

/-- The steps around these texts, with all the opening parentheses in front. -/
def around (steps : Steps) (texts : List String) : List String :=
  List.replicate steps.length "(" ++ texts ++ steps.closings

/-- The steps from a number as one expression. -/
def expression (steps : Steps) (x : Numeral) : Datum :=
  .list ((steps.around [x.text]).map .text)

/-- The tree of the expression: each step has the steps before on its left. -/
def tree (steps : Steps) (t : Tree) : Tree :=
  steps.foldl (fun t s => .node s.1 t (.leaf s.2.text)) t

/-! ## The tree of the expression -/

theorem around_cons (s : Operator × Numeral) (steps : Steps) (texts : List String) :
    around (s :: steps) texts =
      steps.around ("(" :: (texts ++ s.1.text :: [s.2.text]) ++ [")"]) := by
  unfold around closings
  rw [List.length_cons, List.replicate_succ', List.flatMap_cons]
  simp only [List.append_assoc, List.cons_append, List.nil_append]

/-- A step in parentheses stands on the left of any operator. -/
theorem rendering_tree {steps : Steps} {t : Tree} {form : Tree.Form} {texts : List String}
    (h : Tree.Rendering t form texts) (hbare : form = .bare → t.operator? = none) :
    ∃ form, Tree.Rendering (steps.tree t) form (steps.around texts) := by
  induction steps generalizing t form texts with
  | nil => exact ⟨form, by simpa [around, closings, tree] using h⟩
  | cons s steps ih =>
    have hleft : form = .bare → ∀ p ∈ t.operator?, s.1.rank ≤ p.rank := by
      intro hf p hp
      rw [hbare hf] at hp
      cases hp
    have hstep := Tree.Rendering.wrapped
      (Tree.Rendering.node h (.leaf s.2.ofText?_text) hleft fun _ p hp => nomatch hp)
    rw [around_cons]
    exact ih hstep fun hf => nomatch hf

theorem infixValue_expression (steps : Steps) (x : Numeral) :
    (steps.expression x).tokens >>= Expression.infixValue =
      (steps.tree (.leaf x.text)).value := by
  have hx : Tree.Rendering (.leaf x.text) .bare [x.text] := .leaf x.ofText?_text
  obtain ⟨form, h⟩ := @rendering_tree steps _ _ _ hx fun _ => rfl
  have hw := h.written fun _ p _ => Nat.zero_le p.rank
  rw [← hw.infixValue]
  rw [expression, Datum.tokens_texts]
  rfl

/-! ## The value of the tree -/

/-- An error on the left is the error of the whole. -/
theorem value_tree_of_error {steps : Steps} {t : Tree} {e : Error} (h : t.value = .error e) :
    (steps.tree t).value = .error e := by
  induction steps generalizing t with
  | nil => exact h
  | cons s steps ih =>
    apply ih
    rw [Tree.value, h]
    rfl

theorem value_step {t : Tree} {a : Numeral} (h : t.value = .ok a) (op : Operator) (y : Numeral) :
    (Tree.node op t (.leaf y.text)).value = op.apply a y.inDecimal := by
  rw [Tree.value, Tree.value, h, y.ofText_text]
  rfl

end Steps

namespace Calculator

/-- The error of the first call of a run that was refused. -/
def firstRefusal (c : Calculator) (calls : List Call) : Option Error :=
  (c.trace calls).findSome? (·.2)

theorem firstRefusal_cons (c : Calculator) (call : Call) (calls : List Call) :
    c.firstRefusal (call :: calls) =
      ((c.answer call).2 <|> (c.answer call).1.firstRefusal calls) := by
  unfold firstRefusal
  rw [trace, List.findSome?_cons]
  cases (c.answer call).2 <;> rfl

theorem added?_operate (op : Operator) (x y : Numeral) :
    (Call.operate op (.numeral y)).added? x =
      some ((op.apply x y).map fun z => ⟨z, .operate op y⟩) := by
  unfold Call.added? Numeral.ofDatum
  dsimp only [bind, Except.bind]
  cases op.apply x y <;> rfl

/-- What a run comes to: the number in the end, or an error with the report of
the first refusal. -/
inductive ComesTo (c : Calculator) (calls : List Call) : Except Error Numeral → Prop
  | value {z : Numeral} : c.firstRefusal calls = none →
      z.toInt = (c.after calls).value.toInt → ComesTo c calls (.ok z)
  | refusal {e f : Error} : c.firstRefusal calls = some e → f.report = e.report →
      ComesTo c calls (.error f)

/-- A run comes to what it comes to after its first call, if that lands. -/
theorem ComesTo.cons {c d : Calculator} {call : Call} {calls : List Call}
    {outcome : Except Error Numeral} (hcall : c.answer call = (d, none))
    (h : ComesTo d calls outcome) : ComesTo c (call :: calls) outcome := by
  have hfirst : c.firstRefusal (call :: calls) = d.firstRefusal calls := by
    rw [firstRefusal_cons, hcall]
    rfl
  have hafter : c.after (call :: calls) = d.after calls := by
    unfold after
    rw [List.foldl_cons, hcall]
  cases h with
  | value hnone hz => exact .value (hfirst.trans hnone) (hz.trans (by rw [hafter]))
  | refusal hsome hreport => exact .refusal (hfirst.trans hsome) hreport

/-- The tree comes to what the run does, from the same number on. -/
theorem comesTo_value_tree (steps : Steps) {c : Calculator} {t : Tree} {a : Numeral}
    (ht : t.value = .ok a) (ha : a.toInt = c.value.toInt) :
    ComesTo c steps.calls (steps.tree t).value := by
  induction steps generalizing c t a with
  | nil => exact ht ▸ .value rfl ha
  | cons s steps ih =>
    obtain ⟨op, y⟩ := s
    have hadded := added?_operate op c.value y
    have hnode := Steps.value_step ht op y
    have hsame : Matches (· = ·) (op.apply a y.inDecimal) (op.apply c.value y) :=
      matches_of_told (Numeral.told_apply (.operator op) ha y.toInt_inDecimal)
    generalize op.apply a y.inDecimal = here at hnode hsame
    generalize op.apply c.value y = there at hadded hsame
    cases hsame with
    | ok hzw => exact (ih hnode (congrArg Numeral.toInt hzw)).cons (answer_of_ok hadded)
    | @error f e hreport =>
      have htree : (Steps.tree (⟨op, y⟩ :: steps) t).value = .error f :=
        @Steps.value_tree_of_error steps _ _ hnode
      have hfirst : c.firstRefusal (Steps.calls (⟨op, y⟩ :: steps)) = some e := by
        rw [Steps.calls, List.map_cons, firstRefusal_cons, answer_of_error hadded]
        rfl
      rw [htree]
      exact .refusal hfirst hreport

/-! ## The laws -/

/-- Steps from a number, written as one expression with each step in
parentheses around those before, come to the number that a calculator holds
after the steps. If a step is refused, the expression is refused with an error
of the same kind and the same message as the first such step. -/
theorem a_run_is_one_expression (x : Numeral) (steps : Steps) :
    ∃ c, start (.numeral x) = .ok c ∧
      (c.firstRefusal steps.calls = none →
        ∃ z, (steps.expression x).tokens >>= Expression.infixValue = .ok z ∧
          z.toInt = (c.after steps.calls).value.toInt) ∧
      ∀ e, c.firstRefusal steps.calls = some e →
        ∃ f, (steps.expression x).tokens >>= Expression.infixValue = .error f ∧
          f.kind = e.kind ∧ f.message = e.message := by
  refine ⟨⟨x, [⟨x, .init x⟩]⟩, rfl, ?_⟩
  have h := @comesTo_value_tree steps ⟨x, [⟨x, .init x⟩]⟩ (.leaf x.text) _ x.ofText_text
    x.toInt_inDecimal
  rw [← Steps.infixValue_expression] at h
  generalize (steps.expression x).tokens >>= Expression.infixValue = outcome at h
  cases h with
  | @value z hnone hz =>
    refine ⟨fun _ => ⟨z, rfl, hz⟩, fun e he => ?_⟩
    rw [hnone] at he
    cases he
  | @refusal e f hsome hreport =>
    refine ⟨fun hnone => ?_, fun e' he => ⟨f, rfl, ?_, ?_⟩⟩
    · rw [hsome] at hnone
      cases hnone
    · rw [hsome] at he
      cases he
      exact congrArg Report.kind hreport
    · rw [hsome] at he
      cases he
      exact congrArg Report.message hreport

/-- From seven: twelve less and then by minus three, which lands, and twelve
less, by zero and one more, which is refused in the middle. -/
theorem seven_less_twelve_as_expressions :
    let x := Numeral.ofInt 7
    let landing : Steps := [(.subtract, .ofInt 12), (.multiply, .ofInt (-3))]
    let refused : Steps := [(.subtract, .ofInt 12), (.divide, .zero), (.add, .one)]
    (∃ z, (landing.expression x).tokens >>= Expression.infixValue = .ok z ∧ z.toInt = 15) ∧
      ∃ f, (refused.expression x).tokens >>= Expression.infixValue = .error f ∧
        f.kind = .divisionByZero := by
  intro x landing refused
  obtain ⟨c, hc, hlanding, _⟩ := a_run_is_one_expression x landing
  obtain ⟨d, hd, _, hrefused⟩ := a_run_is_one_expression x refused
  cases hc
  cases hd
  obtain ⟨z, hz, hvalue⟩ := hlanding rfl
  obtain ⟨f, hf, hkind, _⟩ := hrefused _ rfl
  refine ⟨⟨z, hz, hvalue.trans ?_⟩, f, hf, hkind⟩
  show ((x.sub (.ofInt 12)).mul (.ofInt (-3))).toInt = 15
  rw [Numeral.toInt_mul, Numeral.toInt_sub, Numeral.toInt_ofInt, Numeral.toInt_ofInt,
    Numeral.toInt_ofInt]
  decide

end Calculator

end Abacus
