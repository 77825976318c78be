-- The laws of infix writing. An expression tree has many renderings: a side
-- of an operator stands bare where the ranks hold it together, and parentheses
-- may go around anything, any number of times. Reordering takes each of them
-- back to the one postorder of the tree, and so evaluating gives the value of
-- the tree, or its first error.
import Abacus.Expression.Tree

namespace Abacus

open Expression

namespace Token

theorem ofText_text (symbol : Symbol) : ofText symbol.text = .symbol symbol := by
  rw [ofText, Symbol.ofText?_text]

theorem ofText_operator (op : Operator) : ofText op.text = .symbol (.operator op) :=
  ofText_text (.operator op)

theorem ofText_of_none {s : String} (h : Symbol.ofText? s = none) : ofText s = .operand s := by
  rw [ofText, h]

/-- A numeral is no symbol. -/
theorem ofText?_of_numeral {s : String} {a : Numeral} (h : Numeral.ofText s = .ok a) :
    Symbol.ofText? s = none := by
  cases hs : Symbol.ofText? s with
  | none => rfl
  | some symbol =>
    rw [← Symbol.text_of_ofText? hs] at h
    rcases symbol with (_ | _ | _ | _ | _ | _) | _ | _ <;> cases h

end Token

namespace Tree

/-! ## Renderings -/

/-- The operator at the root; a leaf has none. -/
def operator? : Tree → Option Operator
  | leaf _ => none
  | node op _ _ => some op

/-- The texts of the tree in postfix order. -/
def postorder : Tree → List String
  | leaf s => [s]
  | node op l r => l.postorder ++ r.postorder ++ [op.text]

/-- How a rendering stands beside an operator. -/
inductive Form where
  | bare
  | wrapped

/-- The texts write the tree in infix. A leaf is any text that is no symbol. A
left side stands bare if it is a leaf or its rank is not below that of its
operator, a right side if it is a leaf or its rank is higher. -/
inductive Rendering : Tree → Form → List String → Prop
  | leaf {s : String} : Symbol.ofText? s = none → Rendering (.leaf s) .bare [s]
  | node {op : Operator} {l r : Tree} {lf rf : Form} {ls rs : List String} :
      Rendering l lf ls → Rendering r rf rs →
      (lf = .bare → ∀ p ∈ l.operator?, op.rank ≤ p.rank) →
      (rf = .bare → ∀ p ∈ r.operator?, op.rank < p.rank) →
      Rendering (.node op l r) .bare (ls ++ op.text :: rs)
  | wrapped {t : Tree} {form : Form} {ts : List String} :
      Rendering t form ts → Rendering t .wrapped ("(" :: ts ++ [")"])

/-- A rendering in parentheses is written at every rank, a bare one up to the
rank of its root. -/
theorem Rendering.written {t : Tree} {form : Form} {texts : List String}
    (h : Rendering t form texts) {rank : Nat}
    (hr : form = .bare → ∀ p ∈ t.operator?, rank ≤ p.rank) :
    Written rank t (texts.map Token.ofText) := by
  induction h generalizing rank with
  | leaf hs =>
    rw [List.map_singleton, Token.ofText_of_none hs]
    exact Written.leaf rank _
  | @node op l r lf rf ls rs _ _ hl hrt ihl ihr =>
    rw [List.map_append, List.map_cons, Token.ofText_operator]
    exact Written.node (hr rfl op rfl) (ihl hl) (ihr hrt)
  | @wrapped t form ts _ ih =>
    rw [List.map_append, List.map_cons, List.map_singleton]
    exact Written.wrapped (ih fun _ p _ => Nat.zero_le p.rank)

/-! ## The way back -/

theorem tokens_toDatum (t : Tree) : t.tokens.map Token.toDatum = t.postorder.map Datum.text := by
  induction t with
  | leaf s => rfl
  | node op l r ihl ihr =>
    simp only [tokens, postorder, List.map_append, ihl, ihr]
    rfl

theorem tokens_isText (t : Tree) : t.tokens.all isText = true := by
  induction t with
  | leaf s => rfl
  | node op l r ihl ihr =>
    rw [tokens, List.all_append, List.all_append, ihl, ihr]
    rfl

/-- Nothing waits before or after a whole expression, so all of its tokens
come out. -/
theorem Written.postfixOrder {t : Tree} {ts : List Token} (h : Written 0 t ts) :
    Expression.postfixOrder ts = .ok t.tokens := by
  obtain ⟨out, ops, hreorder, htokens, _⟩ := @reorder_written _ _ _ h [] trivial
  have hend := hreorder ts []
  rw [List.append_nil, List.append_nil, reorder_nil, Except.map, htokens] at hend
  exact postfixOrder_eq_ok_iff.2 ⟨hend, t.tokens_isText⟩

theorem Written.infixValue {t : Tree} {ts : List Token} (h : Written 0 t ts) :
    Expression.infixValue ts = t.value := by
  unfold Expression.infixValue
  rw [h.postfixOrder]
  exact t.postfixValue_tokens

/-! ## The laws -/

/-- A rendering comes back as the postorder of its tree, whatever the shape of
the tree and wherever parentheses stand. Its value is that of the tree: of the
left side, of the right side, then of the operator on both, and the first of
them that is refused decides the error. -/
theorem a_rendering_means_its_tree {t : Tree} {form : Form} {texts : List String}
    (h : Rendering t form texts) :
    ((Datum.list (texts.map .text)).tokens >>= postfixOrder).map (List.map Token.toDatum) =
        .ok (t.postorder.map .text) ∧
      (Datum.list (texts.map .text)).tokens >>= infixValue = t.value := by
  have hw : Written 0 t (texts.map Token.ofText) := h.written fun _ p _ => Nat.zero_le p.rank
  rw [Datum.tokens_texts]
  constructor
  · show (Expression.postfixOrder _).map _ = _
    rw [hw.postfixOrder, Except.map, t.tokens_toDatum]
  · show (do postfixValue (← Expression.postfixOrder _)) = _
    rw [hw.postfixOrder]
    exact t.postfixValue_tokens

/-- A difference to the left of a difference, with a product of one that is
wrapped twice. -/
theorem a_rendering_of_nested_differences :
    let whole := node .subtract (node .subtract (leaf "9") (leaf "8"))
      (node .multiply (node .subtract (leaf "3") (leaf "2")) (leaf "4"))
    let texts := ["9", "-", "8", "-", "(", "(", "3", "-", "2", ")", ")", "*", "4"]
    Rendering whole .bare texts ∧
      ((Datum.list (texts.map .text)).tokens >>= postfixOrder).map (List.map Token.toDatum) =
        .ok (["9", "8", "-", "3", "2", "-", "4", "*", "-"].map .text) ∧
      ((Datum.list (texts.map .text)).tokens >>= infixValue).map Numeral.toInt = .ok (-3) := by
  intro whole texts
  have hleft : Rendering (node .subtract (leaf "9") (leaf "8")) .bare ["9", "-", "8"] :=
    .node (.leaf rfl) (.leaf rfl) (by simp [operator?]) (by simp [operator?])
  have hinner : Rendering (node .subtract (leaf "3") (leaf "2")) .bare ["3", "-", "2"] :=
    .node (.leaf rfl) (.leaf rfl) (by simp [operator?]) (by simp [operator?])
  have hright : Rendering (node .multiply (node .subtract (leaf "3") (leaf "2")) (leaf "4")) .bare
      ["(", "(", "3", "-", "2", ")", ")", "*", "4"] :=
    .node (.wrapped (.wrapped hinner)) (.leaf rfl) (by simp) (by simp [operator?])
  have h : Rendering whole .bare texts :=
    .node hleft hright (by simp [operator?]) (by simp [operator?, Operator.rank])
  have h2 : Numeral.ofText "2" = .ok (Decimal.ofTopDigits [2] false).toNumeral := rfl
  have h3 : Numeral.ofText "3" = .ok (Decimal.ofTopDigits [3] false).toNumeral := rfl
  have h4 : Numeral.ofText "4" = .ok (Decimal.ofTopDigits [4] false).toNumeral := rfl
  have h8 : Numeral.ofText "8" = .ok (Decimal.ofTopDigits [8] false).toNumeral := rfl
  have h9 : Numeral.ofText "9" = .ok (Decimal.ofTopDigits [9] false).toNumeral := rfl
  refine ⟨h, (a_rendering_means_its_tree h).1, ?_⟩
  rw [(a_rendering_means_its_tree h).2]
  simp only [whole, value, h2, h3, h4, h8, h9, bind, Except.bind, Except.map, Operator.apply,
    Numeral.toInt_sub, Numeral.toInt_mul]
  rfl

end Tree

end Abacus
