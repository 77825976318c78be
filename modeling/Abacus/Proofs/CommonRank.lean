-- Sums and differences in the usual grammar, where plus and minus have one
-- rank, group to the left together, and times binds tighter. Here minus ranks
-- above plus, so that what is added is a whole chain of differences. The value
-- is the same: a chain of differences can be added as a whole, or its first
-- number alone and the others subtracted after that.
import Abacus.Proofs.Rendering
import Abacus.Proofs.Canonical

namespace Abacus.Expression

/-! ## The usual grammar -/

/-- Numerals, sums, differences and products of them, and parentheses around
any part. -/
inductive Formed : List String → Prop
  | numeral {s : String} {a : Numeral} : Numeral.ofText s = .ok a → Formed [s]
  | wrapped {ts : List String} : Formed ts → Formed ("(" :: ts ++ [")"])
  | sum {xs ys : List String} : Formed xs → Formed ys → Formed (xs ++ "+" :: ys)
  | difference {xs ys : List String} : Formed xs → Formed ys → Formed (xs ++ "-" :: ys)
  | product {xs ys : List String} : Formed xs → Formed ys → Formed (xs ++ "*" :: ys)

/-- The parts of an expression in the usual grammar. -/
inductive Part where
  | sum
  | product
  | factor

/-- The texts of a part, and its value. A sum goes on with products that are
added or subtracted, and a product with factors. -/
inductive Usual : Part → List String → Int → Prop
  | numeral {s : String} {a : Numeral} : Numeral.ofText s = .ok a → Usual .factor [s] a.toInt
  | wrapped {ts : List String} {n : Int} :
      Usual .sum ts n → Usual .factor ("(" :: ts ++ [")"]) n
  | factor {ts : List String} {n : Int} : Usual .factor ts n → Usual .product ts n
  | times {xs ys : List String} {m n : Int} :
      Usual .product xs m → Usual .factor ys n → Usual .product (xs ++ "*" :: ys) (m * n)
  | product {ts : List String} {n : Int} : Usual .product ts n → Usual .sum ts n
  | plus {xs ys : List String} {m n : Int} :
      Usual .sum xs m → Usual .product ys n → Usual .sum (xs ++ "+" :: ys) (m + n)
  | minus {xs ys : List String} {m n : Int} :
      Usual .sum xs m → Usual .product ys n → Usual .sum (xs ++ "-" :: ys) (m - n)

/-! ## Well-formed texts are read by the grammar -/

/-- What goes on with every product goes on with every sum. -/
theorem Usual.exists_append_sum {xs ys : List String} {s : String} {n : Int}
    (hs : ∀ ys n, Usual .product ys n → ∃ k, Usual .sum (xs ++ s :: ys) k)
    (h : Usual .sum ys n) : ∃ k, Usual .sum (xs ++ s :: ys) k := by
  generalize hpart : Part.sum = part at h
  induction h with
  | numeral _ | wrapped _ _ | factor _ _ | times _ _ _ _ => cases hpart
  | product h _ => exact hs _ _ h
  | @plus ys zs _ _ _ hz ih _ =>
    obtain ⟨k, hk⟩ := ih hpart
    have hplus := hk.plus hz
    rw [List.append_assoc, List.cons_append] at hplus
    exact ⟨_, hplus⟩
  | @minus ys zs _ _ _ hz ih _ =>
    obtain ⟨k, hk⟩ := ih hpart
    have hminus := hk.minus hz
    rw [List.append_assoc, List.cons_append] at hminus
    exact ⟨_, hminus⟩

theorem Usual.exists_product {xs ys : List String} {m n : Int} (hx : Usual .product xs m)
    (h : Usual .product ys n) : ∃ k, Usual .product (xs ++ "*" :: ys) k := by
  generalize hpart : Part.product = part at h
  induction h with
  | numeral _ | wrapped _ _ | product _ _ | plus _ _ _ _ | minus _ _ _ _ => cases hpart
  | factor h _ => exact ⟨_, hx.times h⟩
  | @times ys zs _ _ _ hz ih _ =>
    obtain ⟨k, hk⟩ := ih hpart
    have htimes := hk.times hz
    rw [List.append_assoc, List.cons_append] at htimes
    exact ⟨_, htimes⟩

/-- Times takes the last product of a sum. -/
theorem Usual.exists_times {xs ys : List String} {m n : Int} (h : Usual .sum xs m)
    (hy : Usual .product ys n) : ∃ k, Usual .sum (xs ++ "*" :: ys) k := by
  cases h with
  | product hx =>
    obtain ⟨k, hk⟩ := hx.exists_product hy
    exact ⟨k, hk.product⟩
  | plus hx hz =>
    obtain ⟨k, hk⟩ := hz.exists_product hy
    rw [List.append_assoc, List.cons_append]
    exact ⟨_, hx.plus hk⟩
  | minus hx hz =>
    obtain ⟨k, hk⟩ := hz.exists_product hy
    rw [List.append_assoc, List.cons_append]
    exact ⟨_, hx.minus hk⟩

theorem Formed.exists_usual {texts : List String} (h : Formed texts) :
    ∃ n, Usual .sum texts n := by
  induction h with
  | numeral hs => exact ⟨_, (Usual.numeral hs).factor.product⟩
  | wrapped _ ih =>
    obtain ⟨n, hn⟩ := ih
    exact ⟨n, hn.wrapped.factor.product⟩
  | sum _ _ ihx ihy =>
    obtain ⟨m, hm⟩ := ihx
    obtain ⟨n, hn⟩ := ihy
    exact hn.exists_append_sum fun _ _ hy => ⟨_, hm.plus hy⟩
  | difference _ _ ihx ihy =>
    obtain ⟨m, hm⟩ := ihx
    obtain ⟨n, hn⟩ := ihy
    exact hn.exists_append_sum fun _ _ hy => ⟨_, hm.minus hy⟩
  | product _ _ ihx ihy =>
    obtain ⟨m, hm⟩ := ihx
    obtain ⟨n, hn⟩ := ihy
    exact hn.exists_append_sum fun _ _ hy => hm.exists_times hy

/-! ## Trees by rank -/

/-- The texts write a tree of this value, where only operators of at least
this rank stand bare. -/
def Reads (rank : Nat) (texts : List String) (n : Int) : Prop :=
  ∃ (t : Tree) (a : Numeral),
    Tree.Written rank t (texts.map Token.ofText) ∧ t.value = .ok a ∧ a.toInt = n

theorem Reads.mono {low high : Nat} {texts : List String} {n : Int} (h : Reads high texts n)
    (hle : low ≤ high) : Reads low texts n := by
  obtain ⟨t, a, ht, hvalue⟩ := h
  exact ⟨t, a, ht.mono hle, hvalue⟩

theorem Reads.numeral {s : String} {a : Numeral} (h : Numeral.ofText s = .ok a) (rank : Nat) :
    Reads rank [s] a.toInt := by
  refine ⟨.leaf s, a, ?_, h, rfl⟩
  rw [List.map_singleton, Token.ofText_of_none (Token.ofText?_of_numeral h)]
  exact .leaf rank s

theorem Reads.wrapped {texts : List String} {n : Int} (h : Reads 0 texts n) (rank : Nat) :
    Reads rank ("(" :: texts ++ [")"]) n := by
  obtain ⟨t, a, ht, hvalue⟩ := h
  refine ⟨t, a, ?_, hvalue⟩
  rw [List.map_append, List.map_cons]
  exact .wrapped ht

/-- An operator with a value for all numbers goes between what may stand at
its sides. -/
theorem Reads.node {op : Operator} {f : Int → Int → Int}
    (hop : ∀ a b, ∃ c, op.apply a b = .ok c ∧ c.toInt = f a.toInt b.toInt)
    {xs ys : List String} {m n : Int} (hx : Reads op.rank xs m) (hy : Reads (op.rank + 1) ys n) :
    Reads op.rank (xs ++ op.text :: ys) (f m n) := by
  obtain ⟨l, a, hl, ha, rfl⟩ := hx
  obtain ⟨r, b, hr, hb, rfl⟩ := hy
  obtain ⟨c, hc, hvalue⟩ := hop a b
  refine ⟨.node op l r, c, ?_, ?_, hvalue⟩
  · rw [List.map_append, List.map_cons, Token.ofText_operator]
    exact .node (Nat.le_refl _) hl hr
  · rw [Tree.value, ha, hb]
    exact hc

theorem Reads.add {xs ys : List String} {m n : Int} (hx : Reads Operator.add.rank xs m)
    (hy : Reads Operator.subtract.rank ys n) :
    Reads Operator.add.rank (xs ++ "+" :: ys) (m + n) :=
  @Reads.node .add (· + ·) (fun a b => ⟨a.add b, rfl, a.toInt_add b⟩) _ _ _ _ hx hy

theorem Reads.sub {xs ys : List String} {m n : Int} (hx : Reads Operator.subtract.rank xs m)
    (hy : Reads Operator.multiply.rank ys n) :
    Reads Operator.subtract.rank (xs ++ "-" :: ys) (m - n) :=
  @Reads.node .subtract (· - ·) (fun a b => ⟨a.sub b, rfl, a.toInt_sub b⟩) _ _ _ _ hx hy

theorem Reads.mul {xs ys : List String} {m n : Int} (hx : Reads Operator.multiply.rank xs m)
    (hy : Reads (Operator.multiply.rank + 1) ys n) :
    Reads Operator.multiply.rank (xs ++ "*" :: ys) (m * n) :=
  @Reads.node .multiply (· * ·) (fun a b => ⟨a.mul b, rfl, a.toInt_mul b⟩) _ _ _ _ hx hy

/-! ## Sums of chains of differences -/

/-- How the ranks group a part of the usual grammar. A sum is a chain of
differences, or ends in one that is added to all before it. -/
def Grouped : Part → List String → Int → Prop
  | .factor, texts, n => ∀ rank, Reads rank texts n
  | .product, texts, n => Reads Operator.multiply.rank texts n
  | .sum, texts, n => Reads Operator.subtract.rank texts n ∨
    ∃ xs ys l m, texts = xs ++ "+" :: ys ∧ n = l + m ∧ Reads Operator.add.rank xs l ∧
      Reads Operator.subtract.rank ys m

theorem Grouped.reads {texts : List String} {n : Int} (h : Grouped .sum texts n) :
    Reads Operator.add.rank texts n := by
  rcases h with h | ⟨xs, ys, l, m, rfl, rfl, hx, hy⟩
  · exact h.mono (by decide)
  · exact hx.add hy

theorem Usual.grouped {part : Part} {texts : List String} {n : Int} (h : Usual part texts n) :
    Grouped part texts n := by
  induction h with
  | numeral hs => exact Reads.numeral hs
  | wrapped _ ih => exact (ih.reads.mono (Nat.zero_le _)).wrapped
  | factor _ ih => exact ih _
  | times _ _ ihx ihy => exact Reads.mul ihx (ihy _)
  | product _ ih => exact .inl (Reads.mono ih (by decide))
  | @plus xs ys m n _ _ ihx ihy =>
    exact .inr ⟨xs, ys, m, n, rfl, rfl, ihx.reads, Reads.mono ihy (by decide)⟩
  | @minus xs zs _ n _ _ ihx ihz =>
    -- what is subtracted goes into the chain that was added last
    rcases ihx with hx | ⟨xs, ys, l, m, rfl, rfl, hx, hy⟩
    · exact .inl (hx.sub ihz)
    · refine .inr ⟨xs, ys ++ "-" :: zs, l, m - n, ?_, Int.add_sub_assoc l m n, hx, hy.sub ihz⟩
      rw [List.append_assoc, List.cons_append]

/-! ## The law -/

/-- The value by rank is the value of the usual grammar. -/
theorem Usual.infixValue {texts : List String} {n : Int} (h : Usual .sum texts n) :
    Expression.infixValue (texts.map Token.ofText) = .ok (Decimal.ofInt n).toNumeral := by
  obtain ⟨t, a, ht, hvalue, rfl⟩ := h.grouped.reads.mono (Nat.zero_le _)
  have ha := ht.infixValue.trans hvalue
  have hbase : a.base = (Decimal.ofInt a.toInt).base := by
    rw [inTen_infixValue _ a ha, Decimal.base_eq]
  rw [ha]
  exact congrArg Except.ok (Numeral.eq_of_toInt hbase (Decimal.toInt_ofInt _).symm)

/-- Numerals with plus, minus, times and parentheses have one value in the
usual grammar, and that value is what they are evaluated to. -/
theorem plus_and_minus_may_share_a_rank {texts : List String} (h : Formed texts) :
    ∃ n, (∀ m, Usual .sum texts m ↔ m = n) ∧
      (Datum.list (texts.map .text)).tokens >>= Expression.infixValue =
        .ok (Decimal.ofInt n).toNumeral := by
  obtain ⟨n, hn⟩ := h.exists_usual
  refine ⟨n, fun m => ⟨fun hm => ?_, fun hm => hm ▸ hn⟩, ?_⟩
  · have hsame := Except.ok.inj (hm.infixValue.symm.trans hn.infixValue)
    have hint := congrArg Numeral.toInt hsame
    rwa [Decimal.toInt_ofInt, Decimal.toInt_ofInt] at hint
  · rw [Datum.tokens_texts]
    exact hn.infixValue

/-- Two differences after a sum, the last one of a product with parentheses. -/
theorem nine_and_two_less_four_less_six :
    let texts := ["9", "+", "2", "-", "4", "-", "3", "*", "(", "1", "+", "1", ")"]
    Formed texts ∧ Usual .sum texts 1 ∧
      (Datum.list (texts.map .text)).tokens >>= Expression.infixValue =
        .ok (Decimal.ofInt 1).toNumeral := by
  intro texts
  have h1 : Numeral.ofText "1" = .ok (Decimal.ofTopDigits [1] false).toNumeral := rfl
  have h2 : Numeral.ofText "2" = .ok (Decimal.ofTopDigits [2] false).toNumeral := rfl
  have h3 : Numeral.ofText "3" = .ok (Decimal.ofTopDigits [3] false).toNumeral := rfl
  have h4 : Numeral.ofText "4" = .ok (Decimal.ofTopDigits [4] false).toNumeral := rfl
  have h9 : Numeral.ofText "9" = .ok (Decimal.ofTopDigits [9] false).toNumeral := rfl
  have hformed : Formed texts :=
    .sum (.numeral h9) (.difference (.numeral h2) (.difference (.numeral h4)
      (.product (.numeral h3) (.wrapped (.sum (.numeral h1) (.numeral h1))))))
  have hinner : Usual .factor ["(", "1", "+", "1", ")"] 2 :=
    .wrapped (.plus (.product (.factor (.numeral h1))) (.factor (.numeral h1)))
  have husual : Usual .sum texts 1 :=
    .minus (.minus (.plus (.product (.factor (.numeral h9))) (.factor (.numeral h2)))
      (.factor (.numeral h4))) (.times (.factor (.numeral h3)) hinner)
  obtain ⟨n, hn, hvalue⟩ := plus_and_minus_may_share_a_rank hformed
  rw [← (hn 1).1 husual] at hvalue
  exact ⟨hformed, husual, hvalue⟩

/-- What is subtracted from a sum is subtracted from the last part of it. -/
example : postfixOrder (["a", "+", "b", "-", "c"].map Token.ofText) =
    .ok (["a", "b", "c", "-", "+"].map Token.ofText) := rfl

end Abacus.Expression
