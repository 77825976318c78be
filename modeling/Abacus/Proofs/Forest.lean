-- The laws of postfix order. Texts that could be worked through are those of
-- trees, one tree after the other, and the values on hand are theirs. The next
-- text adds to these trees or is at fault, and the first text at fault decides
-- the kind of the error, whatever comes behind it.
import Abacus.Proofs.Reordering
import Abacus.Proofs.Spelling

namespace Abacus

open Expression

namespace Tree

/-! ## Trees of numerals -/

/-- Every leaf is a numeral. -/
def Numeric : Tree → Prop
  | leaf s => ∃ a, Numeral.ofText s = .ok a
  | node _ l r => l.Numeric ∧ r.Numeric

theorem numeric_of_value {t : Tree} {v : Numeral} (h : t.value = .ok v) : t.Numeric := by
  induction t generalizing v with
  | leaf s => exact ⟨v, h⟩
  | node op l r ihl ihr =>
    obtain ⟨a, ha, h⟩ := exists_of_bind_ok h
    obtain ⟨b, hb, _⟩ := exists_of_bind_ok h
    exact ⟨ihl ha, ihr hb⟩

theorem Numeric.tokens {t : Tree} (h : t.Numeric) : t.postorder.map Token.ofText = t.tokens := by
  induction t with
  | leaf s =>
    obtain ⟨a, ha⟩ := h
    rw [postorder, List.map_singleton, Token.ofText_of_none (Token.ofText?_of_numeral ha)]
    rfl
  | node op l r ihl ihr =>
    rw [postorder, List.map_append, List.map_append, ihl h.1, ihr h.2, List.map_singleton,
      Token.ofText_operator]
    rfl

/-- The trees after one text more, the newest first. An operator takes the two
newest ones as its sides. -/
def graft (trees : List Tree) (s : String) : List Tree :=
  match Symbol.ofText? s, trees with
  | some (.operator op), right :: left :: below => node op left right :: below
  | _, trees => leaf s :: trees

theorem graft_operand {s : String} (h : Symbol.ofText? s = none) (trees : List Tree) :
    graft trees s = leaf s :: trees := by
  unfold graft
  rw [h]

theorem graft_operator (op : Operator) (l r : Tree) (below : List Tree) :
    graft (r :: l :: below) op.text = node op l r :: below := by
  unfold graft
  rw [show op.text = (Symbol.operator op).text from rfl, Symbol.ofText?_text]

theorem Numeric.foldl_graft {t : Tree} (h : t.Numeric) (trees : List Tree) :
    t.postorder.foldl graft trees = t :: trees := by
  induction t generalizing trees with
  | leaf s =>
    obtain ⟨a, ha⟩ := h
    exact graft_operand (Token.ofText?_of_numeral ha) trees
  | node op l r ihl ihr =>
    rw [postorder, List.foldl_append, List.foldl_append, ihl h.1, ihr h.2]
    exact graft_operator op l r trees

/-- Texts are the postorder of one tree at most. -/
theorem Numeric.eq_of_postorder {s t : Tree} (hs : s.Numeric) (ht : t.Numeric)
    (h : s.postorder = t.postorder) : s = t := by
  have hfold := hs.foldl_graft []
  rw [h, ht.foldl_graft] at hfold
  exact (List.cons.inj hfold).1.symm

end Tree

namespace Expression

/-! ## Forests -/

/-- The texts are those of trees, one tree after the other, and the trees have
these values, the newest first. -/
inductive Forest : List String → List Numeral → Prop
  | empty : Forest [] []
  | tree {texts : List String} {values : List Numeral} {t : Tree} {v : Numeral} :
      Forest texts values → t.value = .ok v → Forest (texts ++ t.postorder) (v :: values)

/-- The texts stand for a forest, except for the last one, which is at fault:
a malformed numeral, a parenthesis, an operator without two values, or one
that refuses the two newest values. The error is of this kind. -/
inductive Fault : List String → ErrorKind → Prop
  | malformed {texts : List String} {values : List Numeral} {s : String} {e : Error} :
      Forest texts values → Symbol.ofText? s = none → Numeral.ofText s = .error e →
      Fault (texts ++ [s]) .format
  | parenthesis {texts : List String} {values : List Numeral} {symbol : Symbol} :
      Forest texts values → symbol.isBinary = false → Fault (texts ++ [symbol.text]) .expression
  | missing {texts : List String} {values : List Numeral} {op : Operator} :
      Forest texts values → values.length < 2 → Fault (texts ++ [op.text]) .expression
  | refused {texts : List String} {values : List Numeral} {op : Operator} {a b : Numeral}
      {e : Error} :
      Forest texts (b :: a :: values) → op.apply a b = .error e → Fault (texts ++ [op.text]) e.kind

/-- The texts of one tree, if there is one value. -/
theorem Forest.exists_tree {texts : List String} {v : Numeral} (h : Forest texts [v]) :
    ∃ t : Tree, t.Numeric ∧ t.postorder = texts ∧ t.value = .ok v := by
  cases h with
  | @tree _ _ t _ h hv =>
    cases h
    exact ⟨t, Tree.numeric_of_value hv, rfl, hv⟩

theorem Fault.exists_forest {start : List String} {kind : ErrorKind} (h : Fault start kind) :
    ∃ texts values s, start = texts ++ [s] ∧ Forest texts values := by
  cases h with
  | malformed h | parenthesis h | missing h | refused h => exact ⟨_, _, _, rfl, h⟩

theorem Forest.numeral {texts : List String} {values : List Numeral} {s : String} {v : Numeral}
    (h : Forest texts values) (hs : Numeral.ofText s = .ok v) :
    Forest (texts ++ [s]) (v :: values) :=
  @Forest.tree _ _ (.leaf s) v h hs

/-- An operator makes one tree of the two newest ones. -/
theorem Forest.operator {texts : List String} {values : List Numeral} {op : Operator}
    {a b v : Numeral} (h : Forest texts (b :: a :: values)) (hv : op.apply a b = .ok v) :
    Forest (texts ++ [op.text]) (v :: values) := by
  cases h with
  | tree h hb =>
    cases h with
    | @tree texts _ l _ h ha =>
      rename_i r
      have hnode : (Tree.node op l r).value = .ok v := by
        rw [Tree.value, ha, hb]
        exact hv
      have htree := Forest.tree h hnode
      rwa [Tree.postorder, ← List.append_assoc, ← List.append_assoc] at htree

/-- Texts stand for a forest, or some start of them is at fault. -/
theorem forest_or_fault {texts : List String} {values : List Numeral} (h : Forest texts values)
    (rest : List String) :
    (∃ values, Forest (texts ++ rest) values) ∨
      ∃ start tail kind, texts ++ rest = start ++ tail ∧ Fault start kind := by
  induction rest generalizing texts values with
  | nil =>
    rw [List.append_nil]
    exact .inl ⟨values, h⟩
  | cons s rest ih =>
    rw [show texts ++ s :: rest = (texts ++ [s]) ++ rest by simp]
    rcases Token.symbol_or_operand s with ⟨symbol, rfl⟩ | hs
    · cases symbol with
      | opening => exact .inr ⟨_, rest, _, rfl, .parenthesis h rfl⟩
      | closing => exact .inr ⟨_, rest, _, rfl, .parenthesis h rfl⟩
      | operator op =>
        match values, h with
        | [], h | [_], h => exact .inr ⟨_, rest, _, rfl, .missing h (by simp)⟩
        | b :: a :: values, h =>
          cases hv : op.apply a b with
          | error e => exact .inr ⟨_, rest, _, rfl, .refused h hv⟩
          | ok v => exact ih (h.operator hv)
    · cases hv : Numeral.ofText s with
      | error e => exact .inr ⟨_, rest, _, rfl, .malformed h hs hv⟩
      | ok v => exact ih (h.numeral hv)

/-! ## Working through a forest -/

theorem Forest.run_tokens {texts : List String} {values : List Numeral} (h : Forest texts values)
    (whole rest : List Token) :
    run whole [] (texts.map Token.ofText ++ rest) = run whole values rest := by
  induction h generalizing rest with
  | empty => rfl
  | @tree texts values t v _ hv ih =>
    rw [List.map_append, List.append_assoc, ih, (Tree.numeric_of_value hv).tokens,
      Tree.run_tokens, hv]
    rfl

theorem Forest.run_concat {texts : List String} {values : List Numeral} (h : Forest texts values)
    (s : String) (whole rest : List Token) :
    run whole [] ((texts ++ [s]).map Token.ofText ++ rest) =
      run whole values (Token.ofText s :: rest) := by
  rw [List.map_append, List.append_assoc, h.run_tokens]
  rfl

/-- A fault ends the work, and what comes behind it is not looked at. -/
theorem Fault.run_tokens {start : List String} {kind : ErrorKind} (h : Fault start kind)
    (whole rest : List Token) :
    ∃ e, run whole [] (start.map Token.ofText ++ rest) = .error e ∧ e.kind = kind := by
  cases h with
  | @malformed texts values s e hforest hs he =>
    refine ⟨e, ?_, Numeral.kind_of_ofText he⟩
    rw [hforest.run_concat, Token.ofText_of_none hs, run, he]
    rfl
  | @parenthesis texts values symbol hforest hsymbol =>
    refine ⟨.parenthesisInPostfix (whole.map Token.toDatum), ?_, rfl⟩
    rw [hforest.run_concat, Token.ofText_text]
    cases symbol with
    | operator op => cases hsymbol
    | opening | closing => rfl
  | @missing texts values op hforest hvalues =>
    refine ⟨.missingOperands op.text (whole.map Token.toDatum), ?_, rfl⟩
    rw [hforest.run_concat, Token.ofText_operator]
    match values, hvalues with
    | [], _ | [_], _ => rfl
  | @refused texts values op a b e hforest he =>
    refine ⟨e, ?_, rfl⟩
    rw [hforest.run_concat, Token.ofText_operator, run, he]
    rfl

/-! ## The value of texts in postfix order -/

/-- What a list of texts comes to in postfix order. -/
def postfixOutcome (texts : List String) : Except Error Numeral :=
  (Datum.list (texts.map .text)).tokens >>= postfixValue

theorem postfixOutcome_eq (texts : List String) :
    postfixOutcome texts = postfixValue (texts.map Token.ofText) := by
  rw [postfixOutcome, Datum.tokens_texts]
  rfl

/-- The texts of a forest are worked through to the values of its trees. -/
theorem Forest.run_texts {texts : List String} {values : List Numeral} (h : Forest texts values)
    (whole : List Token) : run whole [] (texts.map Token.ofText) = .ok values := by
  have hrun := h.run_tokens whole []
  rwa [List.append_nil] at hrun

theorem Forest.postfixValue {texts : List String} {values : List Numeral}
    (h : Forest texts values) (hone : values.length ≠ 1) :
    ∃ e, Expression.postfixValue (texts.map Token.ofText) = .error e ∧ e.kind = .expression := by
  unfold Expression.postfixValue
  rw [h.run_texts]
  match values, hone with
  | [], _ | _ :: _ :: _, _ => exact ⟨_, rfl, rfl⟩
  | [_], hone => exact absurd rfl hone

theorem Fault.postfixValue {start : List String} {kind : ErrorKind} (h : Fault start kind)
    (rest : List String) :
    ∃ e, Expression.postfixValue ((start ++ rest).map Token.ofText) = .error e ∧
      e.kind = kind := by
  obtain ⟨e, hrun, hkind⟩ := h.run_tokens ((start ++ rest).map Token.ofText)
    (rest.map Token.ofText)
  refine ⟨e, ?_, hkind⟩
  rw [← List.map_append] at hrun
  rw [Expression.postfixValue, hrun]
  rfl

/-- Only the texts of one tree have a value, which is that of the tree. -/
theorem postfixValue_texts_iff {texts : List String} {v : Numeral} :
    postfixValue (texts.map Token.ofText) = .ok v ↔
      ∃ t : Tree, t.Numeric ∧ t.postorder = texts ∧ t.value = .ok v := by
  constructor
  · intro h
    rcases forest_or_fault .empty texts with ⟨values, hforest⟩ | ⟨start, tail, kind, rfl, hfault⟩
    · rw [List.nil_append] at hforest
      match values, hforest with
      | [w], hforest =>
        have hw := postfixValue_eq_ok_iff.2 (hforest.run_texts (texts.map Token.ofText))
        cases hw.symm.trans h
        exact hforest.exists_tree
      | [], hforest | _ :: _ :: _, hforest =>
        obtain ⟨e, he, _⟩ := hforest.postfixValue (by simp)
        cases he.symm.trans h
    · obtain ⟨e, he, _⟩ := hfault.postfixValue tail
      cases he.symm.trans h
  · rintro ⟨t, ht, rfl, hv⟩
    rw [ht.tokens, t.postfixValue_tokens, hv]

/-- Nothing before a fault is at fault. -/
theorem Fault.shortest {start shorter : List String} {kind other : ErrorKind}
    (h : Fault start kind) (hstart : shorter <+: start) (hne : shorter ≠ start) :
    ¬ Fault shorter other := by
  intro hshorter
  obtain ⟨texts, values, s, rfl, hforest⟩ := h.exists_forest
  obtain ⟨rest, rfl⟩ := (List.prefix_concat_iff.1 hstart).resolve_left hne
  obtain ⟨e, he, _⟩ := hshorter.run_tokens [] (rest.map Token.ofText)
  rw [← List.map_append, hforest.run_texts] at he
  cases he

/-! ## The law -/

/-- Texts have a value in postfix order exactly when they are the postorder of
a tree of numerals that has this value, and there is only one such tree. In
every other case a start of them is at fault, or they are the texts of no tree
or of several. The shortest start at fault decides the kind of the error, and
no text behind it changes that. -/
theorem texts_of_one_tree_have_a_value :
    (∀ texts v, postfixOutcome texts = .ok v ↔
        ∃ t : Tree, t.Numeric ∧ t.postorder = texts ∧ t.value = .ok v) ∧
      (∀ s t : Tree, s.Numeric → t.Numeric → s.postorder = t.postorder → s = t) ∧
      (∀ texts, (∃ v, postfixOutcome texts = .ok v) ∨
        (∃ start rest kind, texts = start ++ rest ∧ Fault start kind) ∨
        ∃ values, Forest texts values ∧ values.length ≠ 1 ∧
          ∃ e, postfixOutcome texts = .error e ∧ e.kind = .expression) ∧
      ∀ start kind, Fault start kind →
        (∀ shorter other, shorter <+: start → shorter ≠ start → ¬ Fault shorter other) ∧
          ∀ rest, ∃ e, postfixOutcome (start ++ rest) = .error e ∧ e.kind = kind := by
  refine ⟨?_, fun _ _ => Tree.Numeric.eq_of_postorder, ?_, ?_⟩
  · intro texts v
    rw [postfixOutcome_eq]
    exact postfixValue_texts_iff
  · intro texts
    rcases forest_or_fault .empty texts with ⟨values, hforest⟩ | ⟨start, rest, kind, h, hfault⟩
    · by_cases hone : values.length = 1
      · obtain ⟨v, rfl⟩ := List.length_eq_one_iff.1 hone
        refine .inl ⟨v, ?_⟩
        rw [postfixOutcome_eq, postfixValue_texts_iff]
        exact hforest.exists_tree
      · refine .inr (.inr ⟨values, hforest, hone, ?_⟩)
        rw [postfixOutcome_eq]
        exact hforest.postfixValue hone
    · exact .inr (.inl ⟨start, rest, kind, h, hfault⟩)
  · intro start kind hfault
    refine ⟨fun shorter other => hfault.shortest, fun rest => ?_⟩
    rw [postfixOutcome_eq]
    exact hfault.postfixValue rest

/-- A difference on the right of a difference, and a division by zero with a
malformed numeral and a parenthesis behind it. -/
theorem a_division_by_zero_before_worse :
    (∃ v, postfixOutcome ["9", "3", "2", "-", "-"] = .ok v ∧ v.toInt = 8) ∧
      ∃ e, postfixOutcome ["9", "0", "/", "x", "("] = .error e ∧ e.kind = .divisionByZero := by
  have h0 : Numeral.ofText "0" = .ok (Decimal.ofTopDigits [0] false).toNumeral := rfl
  have h2 : Numeral.ofText "2" = .ok (Decimal.ofTopDigits [2] false).toNumeral := rfl
  have h3 : Numeral.ofText "3" = .ok (Decimal.ofTopDigits [3] false).toNumeral := rfl
  have h9 : Numeral.ofText "9" = .ok (Decimal.ofTopDigits [9] false).toNumeral := rfl
  obtain ⟨hvalue, _, _, hfault⟩ := texts_of_one_tree_have_a_value
  constructor
  · refine ⟨_, (hvalue _ _).2 ⟨.node .subtract (.leaf "9") (.node .subtract (.leaf "3") (.leaf "2")),
      ⟨⟨_, h9⟩, ⟨_, h3⟩, ⟨_, h2⟩⟩, rfl, rfl⟩, ?_⟩
    rw [Numeral.toInt_sub, Numeral.toInt_sub]
    rfl
  · have hforest := (Forest.empty.numeral h9).numeral h0
    exact (hfault _ _ (@Fault.refused _ _ .divide _ _ _ hforest rfl)).2 ["x", "("]

end Expression

end Abacus
