-- The laws of reordering, for every list of texts, also where it makes no
-- expression. Parentheses alone decide whether texts can be reordered, and
-- they alone are dropped: operands keep their order, and an operator comes out
-- as often as it went in.
import Abacus.Proofs.Rendering

namespace Abacus

/-! ## Texts as tokens -/

namespace Token

/-- A text writes a symbol, or it is an operand. -/
theorem symbol_or_operand (s : String) :
    (∃ symbol : Symbol, s = symbol.text) ∨ Symbol.ofText? s = none := by
  cases h : Symbol.ofText? s with
  | none => exact .inr rfl
  | some symbol => exact .inl ⟨symbol, (Symbol.text_of_ofText? h).symm⟩

/-- The text of a token that is text. -/
def text : Token → String
  | symbol s => s.text
  | operand s => s
  | foreign _ => ""

theorem text_ofText (s : String) : (ofText s).text = s := by
  rcases symbol_or_operand s with ⟨symbol, rfl⟩ | hs
  · rw [ofText_text]
    rfl
  · rw [ofText_of_none hs]
    rfl

theorem isText_ofText (s : String) : Expression.isText (ofText s) = true := by
  unfold ofText
  cases Symbol.ofText? s <;> rfl

theorem toDatum_of_isText {t : Token} (h : Expression.isText t = true) :
    t.toDatum = .text t.text := by
  cases t with
  | symbol _ | operand _ => rfl
  | foreign _ => cases h

end Token

namespace Expression

/-! ## What comes out -/

def isSymbol : Token → Bool
  | .symbol _ => true
  | _ => false

def isParenthesis : Token → Bool
  | .symbol symbol => !symbol.isBinary
  | _ => false

/-- Reordering puts out what waits and all that comes, parentheses apart. -/
theorem perm_reorder {whole : List Token} {waiting : List Waiting} {ts out : List Token}
    (h : reorder whole waiting ts = .ok out) :
    out.Perm (release waiting ++ ts.filter (!isParenthesis ·)) := by
  fun_induction reorder whole waiting ts generalizing out with
  | case1 waiting _ =>
    cases h
    rw [List.filter_nil, List.append_nil]
  | case2 waiting _ => cases h
  | case3 waiting s rest ih =>
    obtain ⟨later, hl, rfl⟩ := exists_of_map_ok h
    exact ((ih hl).cons _).trans List.perm_middle.symm
  | case4 waiting ds rest => cases h
  | case5 waiting d rest hd ih =>
    obtain ⟨later, hl, rfl⟩ := exists_of_map_ok h
    exact ((ih hl).cons _).trans List.perm_middle.symm
  | case6 waiting rest ih => exact ih h
  | case7 waiting rest _ => cases h
  | case8 waiting rest w below hdrop ih =>
    obtain ⟨later, hl, rfl⟩ := exists_of_map_ok h
    obtain ⟨ops, rfl | ⟨under, rfl⟩⟩ := operators_or_opening waiting
    · rw [dropWhile_of_operators] at hdrop
      cases hdrop
    · rw [dropWhile_operators] at hdrop
      cases hdrop
      rw [takeWhile_operators, release_append, List.append_assoc]
      exact (ih hl).append_left _
  | case9 waiting op rest ih =>
    obtain ⟨later, hl, rfl⟩ := exists_of_map_ok h
    have hwaiting : release waiting = release (waiting.takeWhile (·.goesBefore op)) ++
        release (waiting.dropWhile (·.goesBefore op)) := by
      rw [← release_append, List.takeWhile_append_dropWhile]
    rw [hwaiting, List.append_assoc]
    exact ((ih hl).trans List.perm_middle.symm).append_left _

/-- What is no symbol keeps its place among its like. -/
theorem operands_reorder {whole : List Token} {waiting : List Waiting} {ts out : List Token}
    (h : reorder whole waiting ts = .ok out) :
    out.filter (!isSymbol ·) = ts.filter (!isSymbol ·) := by
  have hrelease : ∀ ws : List Waiting, (release ws).filter (!isSymbol ·) = [] := by
    intro ws
    refine List.filter_eq_nil_iff.2 fun t ht => ?_
    obtain ⟨w, _, hw⟩ := List.mem_filterMap.1 ht
    obtain ⟨op, _, rfl⟩ := Option.map_eq_some_iff.1 hw
    simp [isSymbol]
  fun_induction reorder whole waiting ts generalizing out with
  | case1 waiting _ =>
    cases h
    exact hrelease waiting
  | case2 | case4 | case7 => cases h
  | case3 waiting s rest ih =>
    obtain ⟨later, hl, rfl⟩ := exists_of_map_ok h
    exact congrArg (_ :: ·) (ih hl)
  | case5 waiting d rest hd ih =>
    obtain ⟨later, hl, rfl⟩ := exists_of_map_ok h
    exact congrArg (_ :: ·) (ih hl)
  | case6 waiting rest ih => exact ih h
  | case8 waiting rest w below hdrop ih =>
    obtain ⟨later, hl, rfl⟩ := exists_of_map_ok h
    rw [List.filter_append, hrelease]
    exact ih hl
  | case9 waiting op rest ih =>
    obtain ⟨later, hl, rfl⟩ := exists_of_map_ok h
    rw [List.filter_append, hrelease]
    exact ih hl

/-- A token that is not text is not dropped. -/
theorem isText_of_reorder {whole : List Token} {waiting : List Waiting} {ts out : List Token}
    (h : reorder whole waiting ts = .ok out) (hout : out.all isText = true) :
    ts.all isText = true := by
  refine List.all_eq_true.2 fun t ht => ?_
  cases hp : isParenthesis t with
  | true =>
    cases t with
    | symbol _ => rfl
    | operand _ | foreign _ => cases hp
  | false =>
    have hkept : t ∈ ts.filter (!isParenthesis ·) := List.mem_filter.2 ⟨ht, by rw [hp]; rfl⟩
    have hmem : t ∈ out := (perm_reorder h).mem_iff.2 (List.mem_append_right _ hkept)
    exact List.all_eq_true.1 hout t hmem

/-! ## Depth -/

/-- How deep in parentheses one text leads, from a depth. At no depth there is
none to close. -/
def nest (depth : Nat) (s : String) : Option Nat :=
  if s = "(" then some (depth + 1)
  else if s = ")" then if depth = 0 then none else some (depth - 1)
  else some depth

/-- How deep in parentheses the texts end, from a depth on, if none of them
closes what is not open. -/
def depthAfter (depth : Nat) (texts : List String) : Option Nat := texts.foldlM nest depth

theorem depthAfter_cons (depth : Nat) (s : String) (rest : List String) :
    depthAfter depth (s :: rest) = (nest depth s).bind (depthAfter · rest) := rfl

theorem nest_of_ne {s : String} (hopening : s ≠ "(") (hclosing : s ≠ ")") (depth : Nat) :
    nest depth s = some depth := by
  rw [nest, if_neg hopening, if_neg hclosing]

theorem nest_eq_none {depth : Nat} {s : String} (h : nest depth s = none) :
    depth = 0 ∧ s = ")" := by
  by_cases hopening : s = "("
  · subst hopening
    cases h
  · by_cases hclosing : s = ")"
    · subst hclosing
      cases depth with
      | zero => exact ⟨rfl, rfl⟩
      | succ depth => cases h
    · rw [nest_of_ne hopening hclosing] at h
      cases h

theorem count_of_nest {depth next : Nat} {s : String} (h : nest depth s = some next) :
    depth + [s].count "(" = next + [s].count ")" := by
  by_cases hopening : s = "("
  · subst hopening
    cases h
    rfl
  · by_cases hclosing : s = ")"
    · subst hclosing
      cases depth with
      | zero => cases h
      | succ depth =>
        cases h
        rfl
    · rw [nest_of_ne hopening hclosing] at h
      cases h
      rw [List.count_singleton, List.count_singleton]
      simp [hopening, hclosing]

/-- A start of more texts is empty or begins with the first of them. -/
theorem exists_prefix_cons {s : String} {rest : List String} {P : List String → Prop}
    (h : ¬ P []) : (∃ start, start <+: s :: rest ∧ P start) ↔
      ∃ start, start <+: rest ∧ P (s :: start) := by
  constructor
  · rintro ⟨start, hstart, hP⟩
    rcases List.prefix_cons_iff.1 hstart with rfl | ⟨start, rfl, hrest⟩
    · exact absurd hP h
    · exact ⟨start, hrest, hP⟩
  · rintro ⟨start, hrest, hP⟩
    exact ⟨s :: start, List.prefix_cons_iff.2 (.inr ⟨start, rfl, hrest⟩), hP⟩

/-- There is no depth exactly where a start of the texts closes too much. -/
theorem depthAfter_eq_none {depth : Nat} {texts : List String} :
    depthAfter depth texts = none ↔
      ∃ start, start <+: texts ∧ depth + start.count "(" < start.count ")" := by
  induction texts generalizing depth with
  | nil => simp [depthAfter]
  | cons s rest ih =>
    rw [depthAfter_cons, exists_prefix_cons (by simp)]
    cases hnest : nest depth s with
    | none =>
      obtain ⟨rfl, rfl⟩ := nest_eq_none hnest
      exact ⟨fun _ => ⟨[], List.nil_prefix, by decide⟩, fun _ => rfl⟩
    | some next =>
      have hcount := count_of_nest hnest
      rw [Option.bind_some, ih]
      refine exists_congr fun start => and_congr_right fun _ => ?_
      rw [← List.singleton_append, List.count_append, List.count_append]
      omega

/-- Where there is a depth, it is what is open and not closed. -/
theorem count_of_depthAfter {depth last : Nat} {texts : List String}
    (h : depthAfter depth texts = some last) :
    depth + texts.count "(" = last + texts.count ")" := by
  induction texts generalizing depth with
  | nil =>
    cases h
    rfl
  | cons s rest ih =>
    rw [depthAfter_cons] at h
    obtain ⟨next, hnest, hrest⟩ := Option.bind_eq_some_iff.1 h
    have hfirst := count_of_nest hnest
    have hlater := ih hrest
    rw [← List.singleton_append, List.count_append, List.count_append]
    omega

theorem depthAfter_eq_some {depth last : Nat} {texts : List String} :
    depthAfter depth texts = some last ↔
      (∀ start, start <+: texts → start.count ")" ≤ depth + start.count "(") ∧
        depth + texts.count "(" = last + texts.count ")" := by
  constructor
  · intro h
    refine ⟨fun start hstart => Nat.not_lt.1 fun hcount => ?_, count_of_depthAfter h⟩
    rw [depthAfter_eq_none.2 ⟨start, hstart, hcount⟩] at h
    cases h
  · rintro ⟨hstart, hcount⟩
    cases h : depthAfter depth texts with
    | none =>
      obtain ⟨start, hpre, hless⟩ := depthAfter_eq_none.1 h
      exact absurd (hstart start hpre) (Nat.not_le.2 hless)
    | some d =>
      have hd := count_of_depthAfter h
      rw [show d = last by omega]

/-! ## Parentheses that do not match -/

/-- The error of an outcome. -/
def refusal {α : Type} : Except Error α → Option Error
  | .ok _ => none
  | .error e => some e

theorem refusal_map {α β : Type} (f : α → β) (outcome : Except Error α) :
    refusal (outcome.map f) = refusal outcome := by
  cases outcome <;> rfl

theorem refusal_eq_none {α : Type} {outcome : Except Error α} :
    refusal outcome = none ↔ ∃ a, outcome = .ok a := by
  cases outcome <;> simp [refusal]

/-- The error of texts that end at a depth. -/
def mismatch? (whole : List Datum) : Option Nat → Option Error
  | none => some (.unmatchedClose whole)
  | some 0 => none
  | some (_ + 1) => some (.unmatchedOpen whole)

theorem count_dropWhile_goesBefore (op : Operator) (waiting : List Waiting) :
    (waiting.dropWhile (·.goesBefore op)).count .opening = waiting.count .opening := by
  induction waiting with
  | nil => rfl
  | cons w waiting ih =>
    cases w with
    | opening => rfl
    | operator p =>
      rw [List.dropWhile_cons]
      split
      · rw [ih]
        rfl
      · rfl

theorem count_operators (ops : List Operator) : (ops.map Waiting.operator).count .opening = 0 := by
  rw [List.count_eq_zero]
  simp

/-- Reordering is refused for the depth of the texts alone. -/
theorem refusal_reorder (whole : List Token) (waiting : List Waiting) (texts : List String) :
    refusal (reorder whole waiting (texts.map Token.ofText)) =
      mismatch? (whole.map Token.toDatum) (depthAfter (waiting.count .opening) texts) := by
  induction texts generalizing waiting with
  | nil =>
    obtain ⟨ops, rfl | ⟨below, rfl⟩⟩ := operators_or_opening waiting
    · rw [List.map_nil, reorder_nil, count_operators]
      rfl
    · rw [List.map_nil, reorder_nil_of_opening, List.count_append, List.count_cons_self]
      rfl
  | cons s rest ih =>
    rw [List.map_cons, depthAfter_cons]
    rcases Token.symbol_or_operand s with ⟨symbol, rfl⟩ | hs
    · rw [Token.ofText_text]
      cases symbol with
      | opening =>
        rw [reorder, ih, List.count_cons_self]
        rfl
      | closing =>
        obtain ⟨ops, rfl | ⟨below, rfl⟩⟩ := operators_or_opening waiting
        · rw [reorder_closing_of_operators, count_operators]
          rfl
        · rw [reorder_closing, refusal_map, ih, List.count_append, count_operators,
            List.count_cons_self, Nat.zero_add]
          rfl
      | operator op =>
        have hnest : nest (waiting.count .opening) op.text = some (waiting.count .opening) := by
          cases op <;> rfl
        rw [reorder, refusal_map, ih, List.count_cons_of_ne (by simp), count_dropWhile_goesBefore]
        rw [show (Symbol.operator op).text = op.text from rfl, hnest, Option.bind_some]
    · have hnest : nest (waiting.count .opening) s = some (waiting.count .opening) := by
        apply nest_of_ne
        · rintro rfl
          cases hs
        · rintro rfl
          cases hs
      rw [Token.ofText_of_none hs, reorder, refusal_map, ih, hnest, Option.bind_some]

/-- No start of the texts closes more than it opens. -/
def OpensFirst (texts : List String) : Prop :=
  ∀ start, start <+: texts → start.count ")" ≤ start.count "("

/-- Some start closes too much where there is no depth. -/
theorem depthAfter_zero_eq_none {texts : List String} : depthAfter 0 texts = none ↔
    ∃ start, start <+: texts ∧ start.count "(" < start.count ")" := by
  simp only [depthAfter_eq_none, Nat.zero_add]

theorem depthAfter_zero_eq_some {last : Nat} {texts : List String} :
    depthAfter 0 texts = some last ↔
      OpensFirst texts ∧ texts.count "(" = last + texts.count ")" := by
  simp only [depthAfter_eq_some, OpensFirst, Nat.zero_add]

/-- Some parentheses stay open exactly where no start of the texts closes too
much and all of them open more than they close. -/
theorem exists_depthAfter_succ {texts : List String} :
    (∃ d, depthAfter 0 texts = some (d + 1)) ↔
      OpensFirst texts ∧ texts.count ")" < texts.count "(" := by
  simp only [depthAfter_zero_eq_some]
  constructor
  · rintro ⟨d, hstart, hcount⟩
    exact ⟨hstart, by omega⟩
  · rintro ⟨hstart, hcount⟩
    exact ⟨texts.count "(" - texts.count ")" - 1, hstart, by omega⟩

/-! ## Texts in postfix order -/

theorem exists_of_mem_reorder {texts : List String} {out : List Token} {t : Token}
    (h : reorder (texts.map Token.ofText) [] (texts.map Token.ofText) = .ok out)
    (ht : t ∈ out) : ∃ s, t = Token.ofText s := by
  obtain ⟨s, _, rfl⟩ := List.mem_map.1 (List.mem_filter.1 ((perm_reorder h).mem_iff.1 ht)).1
  exact ⟨s, rfl⟩

theorem isText_of_mem_reorder {texts : List String} {out : List Token} {t : Token}
    (h : reorder (texts.map Token.ofText) [] (texts.map Token.ofText) = .ok out)
    (ht : t ∈ out) : isText t = true := by
  obtain ⟨s, rfl⟩ := exists_of_mem_reorder h ht
  exact Token.isText_ofText s

/-- Texts are text from the start, so their parentheses decide alone. -/
theorem postfixOrder_texts (texts : List String) :
    postfixOrder (texts.map Token.ofText) =
      reorder (texts.map Token.ofText) [] (texts.map Token.ofText) := by
  unfold postfixOrder
  cases h : reorder (texts.map Token.ofText) [] (texts.map Token.ofText) with
  | error e => rfl
  | ok out => exact if_pos (List.all_eq_true.2 fun _ ht => isText_of_mem_reorder h ht)

/-- The texts are in another order, and their parentheses are gone. -/
structure Reordered (texts ordered : List String) : Prop where
  no_opening : "(" ∉ ordered
  no_closing : ")" ∉ ordered
  /-- The operands stand in the order of before. -/
  operands : ordered.filter (fun s => (Symbol.ofText? s).isNone) =
    texts.filter fun s => (Symbol.ofText? s).isNone
  operators : ∀ op : Operator, ordered.count op.text = texts.count op.text

theorem map_text_ofText (texts : List String) :
    (texts.map Token.ofText).map Token.text = texts := by
  rw [List.map_map]
  exact (List.map_congr_left fun s _ => Token.text_ofText s).trans (List.map_id texts)

theorem perm_texts {texts : List String} {out : List Token}
    (h : reorder (texts.map Token.ofText) [] (texts.map Token.ofText) = .ok out) :
    (out.map Token.text).Perm (texts.filter fun s => !isParenthesis (Token.ofText s)) := by
  have hperm : out.Perm ((texts.map Token.ofText).filter (!isParenthesis ·)) := perm_reorder h
  rw [List.filter_map] at hperm
  have htexts := hperm.map Token.text
  rwa [map_text_ofText] at htexts

theorem operands_texts {texts : List String} {out : List Token}
    (h : reorder (texts.map Token.ofText) [] (texts.map Token.ofText) = .ok out) :
    (out.map Token.text).filter (fun s => (Symbol.ofText? s).isNone) =
      texts.filter fun s => (Symbol.ofText? s).isNone := by
  have hsymbol : ∀ s, (!isSymbol (Token.ofText s)) = (Symbol.ofText? s).isNone := by
    intro s
    unfold Token.ofText
    cases Symbol.ofText? s <;> rfl
  have hout : ∀ t ∈ out, (Symbol.ofText? t.text).isNone = !isSymbol t := by
    intro t ht
    obtain ⟨s, rfl⟩ := exists_of_mem_reorder h ht
    rw [Token.text_ofText, hsymbol]
  rw [List.filter_map]
  show (out.filter fun t => (Symbol.ofText? t.text).isNone).map Token.text = _
  rw [List.filter_congr hout, operands_reorder h, List.filter_map, map_text_ofText]
  exact List.filter_congr fun s _ => hsymbol s

theorem reordered_of_ok {texts : List String} {out : List Token}
    (h : reorder (texts.map Token.ofText) [] (texts.map Token.ofText) = .ok out) :
    Reordered texts (out.map Token.text) := by
  have hperm := perm_texts h
  refine ⟨?_, ?_, operands_texts h, ?_⟩
  · rw [hperm.mem_iff, List.mem_filter]
    exact fun hmem => absurd hmem.2 (by decide)
  · rw [hperm.mem_iff, List.mem_filter]
    exact fun hmem => absurd hmem.2 (by decide)
  · intro op
    rw [hperm.count_eq, List.count_filter]
    cases op <;> rfl

/-! ## The law -/

/-- The outcome is the error of an expression, with this reason. -/
def RefusedFor {α : Type} (outcome : Except Error α) (reason : String) : Prop :=
  ∃ e, outcome = .error e ∧ e.kind = .expression ∧ e.report.reason = reason

theorem refusedFor_iff {α : Type} {outcome : Except Error α} {reason : String} :
    RefusedFor outcome reason ↔
      ∃ e, refusal outcome = some e ∧ e.kind = .expression ∧ e.report.reason = reason := by
  unfold RefusedFor
  cases outcome <;> simp [refusal]

theorem mismatch?_reason_closing {whole : List Datum} {depth : Option Nat} :
    (∃ e, mismatch? whole depth = some e ∧ e.kind = .expression ∧
      e.report.reason = "Unmatched ')'") ↔ depth = none := by
  rcases depth with _ | _ | d <;> simp [mismatch?, Error.kind, Error.report, Report.expression]

theorem mismatch?_reason_opening {whole : List Datum} {depth : Option Nat} :
    (∃ e, mismatch? whole depth = some e ∧ e.kind = .expression ∧
      e.report.reason = "Unmatched '('") ↔ ∃ d, depth = some (d + 1) := by
  rcases depth with _ | _ | d <;> simp [mismatch?, Error.kind, Error.report, Report.expression]

theorem mismatch?_eq_none {whole : List Datum} {depth : Option Nat} :
    mismatch? whole depth = none ↔ depth = some 0 := by
  rcases depth with _ | _ | d <;> simp [mismatch?]

/-- What a list of texts comes to when it is brought in postfix order. -/
def orderOutcome (texts : List String) : Except Error (List Datum) :=
  ((Datum.list (texts.map .text)).tokens >>= postfixOrder).map (List.map Token.toDatum)

theorem orderOutcome_eq (texts : List String) :
    orderOutcome texts = (reorder (texts.map Token.ofText) [] (texts.map Token.ofText)).map
      (List.map Token.toDatum) := by
  rw [orderOutcome, Datum.tokens_texts, ← postfixOrder_texts]
  rfl

theorem refusal_orderOutcome (texts : List String) :
    refusal (orderOutcome texts) =
      mismatch? ((texts.map Token.ofText).map Token.toDatum) (depthAfter 0 texts) := by
  rw [orderOutcome_eq, refusal_map]
  exact refusal_reorder _ [] texts

/-- Texts are refused for a closing parenthesis exactly when a start of them
closes more than it opens, and for an opening one when no start does and all of
them open more than they close. All other texts are reordered: the parentheses
go, the operands keep their order, and each operator comes out as often as it
went in. -/
theorem only_parentheses_are_dropped (texts : List String) :
    (RefusedFor (orderOutcome texts) "Unmatched ')'" ↔
        ∃ start, start <+: texts ∧ start.count "(" < start.count ")") ∧
      (RefusedFor (orderOutcome texts) "Unmatched '('" ↔
        OpensFirst texts ∧ texts.count ")" < texts.count "(") ∧
      ((∃ ordered : List String,
          orderOutcome texts = .ok (ordered.map .text) ∧ Reordered texts ordered) ↔
        OpensFirst texts ∧ texts.count "(" = texts.count ")") := by
  have hmatch : OpensFirst texts ∧ texts.count "(" = texts.count ")" ↔
      depthAfter 0 texts = some 0 := by
    rw [depthAfter_zero_eq_some, Nat.zero_add]
  have hrefusal := refusal_orderOutcome texts
  rw [refusedFor_iff, refusedFor_iff, hrefusal, ← depthAfter_zero_eq_none,
    ← exists_depthAfter_succ, hmatch, mismatch?_reason_closing, mismatch?_reason_opening]
  refine ⟨Iff.rfl, Iff.rfl, ?_, fun hdepth => ?_⟩
  · rintro ⟨ordered, hordered, _⟩
    rw [hordered] at hrefusal
    exact mismatch?_eq_none.1 hrefusal.symm
  · rw [mismatch?_eq_none.2 hdepth, orderOutcome_eq, refusal_map] at hrefusal
    obtain ⟨out, hout⟩ := refusal_eq_none.1 hrefusal
    refine ⟨out.map Token.text, ?_, reordered_of_ok hout⟩
    rw [orderOutcome_eq, hout, Except.map, List.map_map]
    exact congrArg Except.ok (List.map_congr_left fun t ht =>
      Token.toDatum_of_isText (isText_of_mem_reorder hout ht))

/-- A closing parenthesis that comes too early, an opening one too many, and
texts that make no expression but have matching parentheses. -/
theorem early_and_open_and_matching_parentheses :
    RefusedFor (orderOutcome ["1", ")", "+", "("]) "Unmatched ')'" ∧
      RefusedFor (orderOutcome ["(", "1", ")", "(", "+"]) "Unmatched '('" ∧
      ∃ ordered : List String,
        orderOutcome ["(", "+", "x", "*", ")", "+"] = .ok (ordered.map .text) ∧
          Reordered ["(", "+", "x", "*", ")", "+"] ordered := by
  refine ⟨(only_parentheses_are_dropped ["1", ")", "+", "("]).1.2 ?_,
    (only_parentheses_are_dropped ["(", "1", ")", "(", "+"]).2.1.2 ?_,
    (only_parentheses_are_dropped ["(", "+", "x", "*", ")", "+"]).2.2.2 ?_⟩
  · exact ⟨["1", ")"], ⟨["+", "("], rfl⟩, by decide⟩
  · exact exists_depthAfter_succ.1 ⟨0, rfl⟩
  · exact depthAfter_zero_eq_some.1
      (show depthAfter 0 ["(", "+", "x", "*", ")", "+"] = some 0 from rfl)

end Expression

end Abacus
