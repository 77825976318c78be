-- Expressions as trees. A tree has one order of its tokens in postfix and many
-- ways to be written in infix: parentheses may stand anywhere, and may be left
-- out where the ranks keep the sides together. Postfix tokens run to the value
-- of the tree, and reordering brings every written form to them.
import Abacus.Expression.Postfix

namespace Abacus

inductive Tree where
  | leaf (text : String)
  | node (op : Operator) (left right : Tree)
deriving DecidableEq

namespace Tree

open Expression

/-- The tokens in postfix order. -/
def tokens : Tree → List Token
  | leaf s => [.operand s]
  | node op l r => l.tokens ++ r.tokens ++ [.symbol (.operator op)]

/-- The value: of the left side first, then of the right side, then of the
operator on both. -/
def value : Tree → Except Error Numeral
  | leaf s => Numeral.ofText s
  | node op l r => do
    let a ← l.value
    let b ← r.value
    op.apply a b

/-- The tokens write the tree where only operators of at least this rank may
stand bare. A right side needs a higher rank than its operator, a left side
the same or a higher one. -/
inductive Written : Nat → Tree → List Token → Prop
  | leaf (rank : Nat) (s : String) : Written rank (.leaf s) [.operand s]
  | wrapped {rank : Nat} {t : Tree} {ts : List Token} :
    Written 0 t ts → Written rank t (.symbol .opening :: ts ++ [.symbol .closing])
  | node {rank : Nat} {op : Operator} {l r : Tree} {ls rs : List Token} :
    rank ≤ op.rank → Written op.rank l ls → Written (op.rank + 1) r rs →
      Written rank (.node op l r) (ls ++ .symbol (.operator op) :: rs)

theorem Written.mono {low high : Nat} {t : Tree} {ts : List Token} (h : Written high t ts)
    (hle : low ≤ high) : Written low t ts := by
  cases h with
  | leaf _ s => exact .leaf low s
  | wrapped h => exact .wrapped h
  | node hrank hl hr => exact .node (Nat.le_trans hle hrank) hl hr

/-! ## Running the tokens -/

/-- The tokens of a tree add its value to those on hand, or fail as it does. -/
theorem run_tokens (t : Tree) (whole : List Token) (values : List Numeral) (rest : List Token) :
    run whole values (t.tokens ++ rest) = (do
      let v ← t.value
      run whole (v :: values) rest) := by
  induction t generalizing values rest with
  | leaf s => rfl
  | node op l r ihl ihr =>
    simp only [tokens, List.append_assoc, ihl, ihr, value, bind_assoc]
    rfl

theorem postfixValue_tokens (t : Tree) : postfixValue t.tokens = t.value := by
  have h := run_tokens t t.tokens [] []
  rw [List.append_nil] at h
  rw [postfixValue, h]
  cases t.value <;> rfl

/-! ## Reordering a written form -/

/-- Nothing of this rank or a higher one waits at the front. -/
def Clear (rank : Nat) : List Waiting → Prop
  | .operator op :: _ => op.rank < rank
  | _ => True

theorem Clear.mono {m n : Nat} {waiting : List Waiting} (h : Clear m waiting) (hmn : m ≤ n) :
    Clear n waiting := by
  match waiting with
  | [] | .opening :: _ => trivial
  | .operator op :: _ => exact Nat.lt_of_lt_of_le h hmn

theorem Clear.dropWhile {op : Operator} {waiting : List Waiting} (h : Clear op.rank waiting) :
    waiting.dropWhile (·.goesBefore op) = waiting := by
  match waiting with
  | [] | .opening :: _ => rfl
  | .operator p :: _ => simp [Waiting.goesBefore, Nat.not_le.2 h]

theorem Clear.takeWhile {op : Operator} {waiting : List Waiting} (h : Clear op.rank waiting) :
    waiting.takeWhile (·.goesBefore op) = [] := by
  match waiting with
  | [] | .opening :: _ => rfl
  | .operator p :: _ => simp [Waiting.goesBefore, Nat.not_le.2 h]

theorem map_map_append (as bs : List Token) (e : Except Error (List Token)) :
    (e.map (bs ++ ·)).map (as ++ ·) = e.map (as ++ bs ++ ·) := by
  cases e <;> simp [Except.map]

/-- Reordering a written form puts out part of the tree's tokens and leaves
the operators that complete them waiting. -/
theorem reorder_written {rank : Nat} {t : Tree} {ts : List Token} (h : Written rank t ts)
    {waiting : List Waiting} (hc : Clear rank waiting) :
    ∃ (out : List Token) (ops : List Operator),
      (∀ whole rest, reorder whole waiting (ts ++ rest) =
        (reorder whole (ops.map Waiting.operator ++ waiting) rest).map (out ++ ·)) ∧
      out ++ release (ops.map .operator) = t.tokens ∧ ∀ op ∈ ops, rank ≤ op.rank := by
  induction h generalizing waiting with
  | leaf rank s => exact ⟨[.operand s], [], fun _ _ => rfl, rfl, by simp⟩
  | @wrapped rank t ts _ ih =>
    obtain ⟨out, ops, h1, h2, h3⟩ := @ih (.opening :: waiting) trivial
    refine ⟨t.tokens, [], ?_, by simp [release], by simp⟩
    intro whole rest
    rw [List.cons_append, List.cons_append, List.append_assoc, reorder, h1, List.singleton_append,
      reorder_closing, map_map_append, h2]
    rfl
  | @node rank op l r ls rs hr _ _ ihl ihr =>
    have hcop := hc.mono hr
    obtain ⟨lout, lops, l1, l2, l3⟩ := ihl hcop
    obtain ⟨rout, rops, r1, r2, r3⟩ := @ihr (.operator op :: waiting) (Nat.lt_succ_self _)
    refine ⟨l.tokens ++ rout, rops ++ [op], ?_, ?_, ?_⟩
    · intro whole rest
      have hall : ∀ w ∈ lops.map Waiting.operator, w.goesBefore op = true := by
        intro w hw
        obtain ⟨p, hp, rfl⟩ := List.mem_map.1 hw
        exact decide_eq_true (l3 p hp)
      have hdrop : (lops.map Waiting.operator ++ waiting).dropWhile (·.goesBefore op) = waiting := by
        rw [List.dropWhile_append_of_pos hall, hcop.dropWhile]
      have htake : (lops.map Waiting.operator ++ waiting).takeWhile (·.goesBefore op) =
          lops.map .operator := by
        rw [List.takeWhile_append_of_pos hall, hcop.takeWhile, List.append_nil]
      rw [List.append_assoc, l1, List.cons_append, reorder, hdrop, htake, r1]
      simp only [map_map_append, ← List.append_assoc, l2, List.map_append]
      rw [List.append_assoc (rops.map _)]
      rfl
    · rw [List.map_append, release_append, ← List.append_assoc, List.append_assoc l.tokens, r2]
      rfl
    · intro p hp
      rcases List.mem_append.1 hp with hp | hp
      · have := r3 p hp
        omega
      · rw [List.mem_singleton.1 hp]
        exact hr

end Tree

end Abacus
