-- The laws of cutting a text into tokens. A text is cut exactly when it holds
-- nothing but digits, symbols and blanks; else the first character that is none of
-- them is named. Only blanks are lost, no operand stops short of a digit, and
-- tokens with gaps between them come out again.
import Abacus.Proofs.Reordering
import Abacus.Proofs.Spelling

namespace Abacus

open Text (isBlank Figures)

/-! ## Digits, symbols and blanks -/

theorem Decimal.isSome_digit? (c : Char) : (digit? c).isSome = c.isDigit := by
  rw [Bool.eq_iff_iff, Char.isDigit_iff_toNat]
  unfold digit?
  split
  · rename_i h
    exact iff_of_true rfl h
  · rename_i h
    exact iff_of_false Bool.false_ne_true h

theorem Decimal.digit?_eq_none {c : Char} (h : c.isDigit = false) : digit? c = none := by
  rw [← isSome_digit?] at h
  exact Option.isNone_iff_eq_none.1 (Option.isSome_eq_false_iff.1 h)

theorem Text.isBlank_of_isDigit {c : Char} (h : c.isDigit = true) : isBlank c = false := by
  obtain ⟨d, rfl⟩ := Decimal.exists_digit h
  exact Decimal.isBlank_digitChar d

theorem Text.isDigit_of_isBlank {c : Char} (h : isBlank c = true) : c.isDigit = false := by
  rw [← Bool.not_eq_true]
  intro hd
  rw [isBlank_of_isDigit hd] at h
  cases h

namespace Symbol

/-- The characters of the symbols. -/
def chars : List Char := ['+', '-', '*', '/', '%', '^', '(', ')']

/-- A symbol is written with one character, neither a digit nor a blank. -/
theorem exists_char (symbol : Symbol) : ∃ c ∈ chars, symbol.text.toList = [c] ∧
    c.isDigit = false ∧ isBlank c = false := by
  rcases symbol with (_ | _ | _ | _ | _ | _) | _ | _ <;>
    exact ⟨_, by decide, rfl, by decide, by decide⟩

theorem toList_of_ofText? {c : Char} {symbol : Symbol} (h : ofText? c.toString = some symbol) :
    symbol.text.toList = [c] := by
  rw [text_of_ofText? h]
  exact String.toList_singleton c

theorem isSome_of_mem_chars {c : Char} (h : c ∈ chars) : (ofText? c.toString).isSome = true :=
  List.all_eq_true.1 (rfl : (chars.all fun c => (ofText? c.toString).isSome) = true) c h

theorem mem_chars {c : Char} {symbol : Symbol} (h : ofText? c.toString = some symbol) :
    c ∈ chars := by
  obtain ⟨d, hd, htext, _⟩ := symbol.exists_char
  rw [toList_of_ofText? h] at htext
  rwa [List.singleton_inj.1 htext]

end Symbol

namespace Token

/-- A character that stands in a token, or is a blank. -/
def Allowed (c : Char) : Prop := c.isDigit = true ∨ c ∈ Symbol.chars ∨ isBlank c = true

instance (c : Char) : Decidable (Allowed c) := inferInstanceAs (Decidable (_ ∨ _))

/-! ## What cutting comes to -/

/-- Tokens, if every character is allowed; else a refusal that names the first one
that is not. -/
inductive Outcome (whole : String) : List Char → Except Error (List Token) → Prop
  | cut {cs : List Char} {ts : List Token} : (∀ c ∈ cs, Allowed c) → Outcome whole cs (.ok ts)
  | refused {before after : List Char} {c : Char} : (∀ d ∈ before, Allowed d) → ¬ Allowed c →
      Outcome whole (before ++ c :: after) (.error (.unexpectedCharacter c whole))

section

variable {whole : String}

theorem Outcome.cons {c : Char} {cs : List Char} {outcome : Except Error (List Token)}
    (hc : Allowed c) (h : Outcome whole cs outcome) (f : List Token → List Token) :
    Outcome whole (c :: cs) (outcome.map f) := by
  cases h with
  | cut hcs => exact .cut (List.forall_mem_cons.2 ⟨hc, hcs⟩)
  | refused hbefore hd => exact .refused (List.forall_mem_cons.2 ⟨hc, hbefore⟩) hd

theorem Outcome.exists_iff {cs : List Char} {outcome : Except Error (List Token)}
    (h : Outcome whole cs outcome) : (∃ ts, outcome = .ok ts) ↔ ∀ c ∈ cs, Allowed c := by
  cases h with
  | cut hcs => exact iff_of_true ⟨_, rfl⟩ hcs
  | refused _ hc =>
    refine iff_of_false ?_ fun hcs => hc (hcs _ (List.mem_append_right _ (List.mem_cons_self ..)))
    rintro ⟨ts, hts⟩
    cases hts

theorem Outcome.exists_first {cs : List Char} {outcome : Except Error (List Token)}
    (h : Outcome whole cs outcome) (hcs : ¬ ∀ c ∈ cs, Allowed c) :
    ∃ before c after, cs = before ++ c :: after ∧ (∀ d ∈ before, Allowed d) ∧ ¬ Allowed c ∧
      outcome = .error (.unexpectedCharacter c whole) := by
  cases h with
  | cut hall => exact absurd hall hcs
  | refused hbefore hc => exact ⟨_, _, _, rfl, hbefore, hc, rfl⟩

theorem outcome_cut (waiting cs : List Char) : Outcome whole cs (cut whole waiting cs) := by
  fun_induction cut whole waiting cs with
  | case1 waiting => exact .cut (by simp)
  | case2 waiting c cs hdigit ih =>
    rw [Decimal.isSome_digit?] at hdigit
    have h := ih.cons (.inl hdigit) id
    rwa [Except.map_id] at h
  | case3 waiting c cs _ hblank ih => exact ih.cons (.inr (.inr hblank)) _
  | case4 waiting c cs hdigit hblank hnone =>
    rw [Decimal.isSome_digit?] at hdigit
    refine @Outcome.refused _ [] cs c (by simp) ?_
    rintro (h | h | h)
    · exact hdigit h
    · have hsome := Symbol.isSome_of_mem_chars h
      rw [hnone] at hsome
      cases hsome
    · exact hblank h
  | case5 waiting c cs _ _ symbol hsymbol ih =>
    exact ih.cons (.inr (.inl (Symbol.mem_chars hsymbol))) _

end

/-! ## Tokens in a text -/

/-- The characters hold these tokens in their order, and else only blanks. Behind an
operand no digit follows. -/
inductive Laid : List Char → List Token → Prop
  | nil : Laid [] []
  | blank {c : Char} {cs : List Char} {ts : List Token} : isBlank c = true → Laid cs ts →
      Laid (c :: cs) ts
  | symbol (symbol : Symbol) {cs : List Char} {ts : List Token} : Laid cs ts →
      Laid (symbol.text.toList ++ cs) (.symbol symbol :: ts)
  | operand {ds cs : List Char} {ts : List Token} : Figures ds →
      (∀ c ∈ cs.head?, c.isDigit = false) → Laid cs ts →
      Laid (ds ++ cs) (.operand (String.ofList ds) :: ts)

/-- Digits that wait are an operand once no further digit follows. -/
theorem Laid.close {waiting cs : List Char} {ts : List Token}
    (hwaiting : ∀ d ∈ waiting, d.isDigit = true) (hcs : ∀ c ∈ cs.head?, c.isDigit = false)
    (h : Laid cs ts) : Laid (waiting.reverse ++ cs) (closeOperand waiting ts) := by
  unfold closeOperand
  split
  · rename_i hempty
    rw [List.isEmpty_iff.1 hempty]
    exact h
  · rename_i hsome
    refine .operand ⟨?_, fun d hd => hwaiting d (List.mem_reverse.1 hd)⟩ hcs h
    simpa using hsome

theorem laid_of_cut {whole : String} {cs : List Char} {ts : List Token} (waiting : List Char)
    (hwaiting : ∀ d ∈ waiting, d.isDigit = true) (h : cut whole waiting cs = .ok ts) :
    Laid (waiting.reverse ++ cs) ts := by
  fun_induction cut whole waiting cs generalizing ts with
  | case1 waiting =>
    cases h
    exact .close hwaiting (by simp) .nil
  | case2 waiting c cs hdigit ih =>
    rw [Decimal.isSome_digit?] at hdigit
    have hlaid := ih (List.forall_mem_cons.2 ⟨hdigit, hwaiting⟩) h
    rwa [List.reverse_cons, List.append_assoc] at hlaid
  | case3 waiting c cs hdigit hblank ih =>
    obtain ⟨later, hlater, rfl⟩ := exists_of_map_ok h
    refine .close hwaiting ?_ (.blank hblank (ih (by simp) hlater))
    simpa using Text.isDigit_of_isBlank hblank
  | case4 => cases h
  | case5 waiting c cs hdigit _ symbol hsymbol ih =>
    obtain ⟨later, hlater, rfl⟩ := exists_of_map_ok h
    have hlaid := Laid.symbol symbol (ih (by simp) hlater)
    rw [Symbol.toList_of_ofText? hsymbol] at hlaid
    refine .close hwaiting ?_ hlaid
    rw [Decimal.isSome_digit?] at hdigit
    simpa using hdigit

theorem Laid.cut_eq {whole : String} {cs : List Char} {ts : List Token} (h : Laid cs ts) :
    cut whole [] cs = .ok ts := by
  induction h with
  | nil => rfl
  | blank hblank _ ih => rw [cut_blank whole hblank, map_closeOperand_nil, ih]
  | symbol symbol _ ih =>
    rw [cut_symbol, ih]
    rfl
  | operand hds hcs _ ih =>
    have hdigits := fun d hd => (Decimal.isSome_digit? d).trans (hds.2 d hd)
    rw [cut_operand whole hds.1 hdigits fun c hc => Decimal.digit?_eq_none (hcs c hc), ih]
    rfl

/-- A text is cut into exactly the tokens that its characters hold. -/
theorem scan_eq_ok_iff {s : String} {ts : List Token} : scan s = .ok ts ↔ Laid s.toList ts :=
  ⟨laid_of_cut [] (by simp), Laid.cut_eq⟩

/-! ## Which token holds a character -/

/-- The characters that are no blanks. -/
def marks (cs : List Char) : List Char := cs.filter (!isBlank ·)

/-- The number of the token that holds the character at this place of the joined
tokens. -/
def holder : List Token → Nat → Nat
  | [], _ => 0
  | t :: ts, place => if place < t.text.length then 0 else holder ts (place - t.text.length) + 1

theorem marks_append (as bs : List Char) : marks (as ++ bs) = marks as ++ marks bs :=
  List.filter_append ..

theorem marks_of_digits {ds : List Char} (h : ∀ d ∈ ds, d.isDigit = true) : marks ds = ds := by
  refine List.filter_eq_self.2 fun d hd => ?_
  rw [Text.isBlank_of_isDigit (h d hd)]
  rfl

theorem marks_symbol (symbol : Symbol) : marks symbol.text.toList = symbol.text.toList := by
  obtain ⟨c, _, htext, _, hblank⟩ := symbol.exists_char
  rw [htext]
  exact List.filter_cons_of_pos (by rw [hblank]; rfl)

theorem marks_blank {c : Char} {cs : List Char} (h : isBlank c = true) :
    marks (c :: cs) = marks cs := by
  rw [marks, List.filter_cons, h]
  rfl

/-- Nothing but blanks is lost. -/
theorem Laid.joined {cs : List Char} {ts : List Token} (h : Laid cs ts) :
    (ts.flatMap fun t => t.text.toList) = marks cs := by
  induction h with
  | nil => rfl
  | blank hblank _ ih => rw [marks_blank hblank, ih]
  | symbol symbol _ ih => rw [List.flatMap_cons, ih, marks_append, marks_symbol, text]
  | operand hds _ _ ih =>
    rw [List.flatMap_cons, ih, marks_append, marks_of_digits hds.2, text, String.toList_ofList]

theorem Laid.forms {cs : List Char} {ts : List Token} (h : Laid cs ts) :
    ∀ t ∈ ts, (∃ s, t = .symbol s) ∨ ∃ ds, Figures ds ∧ t = .operand (String.ofList ds) := by
  induction h with
  | nil => simp
  | blank _ _ ih => exact ih
  | symbol s _ ih => exact List.forall_mem_cons.2 ⟨.inl ⟨s, rfl⟩, ih⟩
  | operand hds _ _ ih => exact List.forall_mem_cons.2 ⟨.inr ⟨_, hds, rfl⟩, ih⟩

/-- A place behind a token is a place of the tokens after it. -/
theorem holder_append {t : Token} {ts : List Token} {word cs : List Char}
    (htext : t.text.toList = word) (hword : marks word = word) :
    holder (t :: ts) (marks (word ++ cs)).length = holder ts (marks cs).length + 1 := by
  have hlength : t.text.length = word.length := by rw [← htext, String.length_toList]
  rw [holder, marks_append, hword, List.length_append, hlength, if_neg (by omega),
    Nat.add_sub_cancel_left]

/-- A place in the digits of an operand is a place of that operand. -/
theorem holder_operand {ds before rest : List Char} {x : Char} {ts : List Token}
    (hds : ∀ d ∈ ds, d.isDigit = true) (h : ds = before ++ x :: rest) :
    holder (.operand (String.ofList ds) :: ts) (marks before).length = 0 := by
  subst h
  rw [marks_of_digits fun d hd => hds d (List.mem_append_left _ hd)]
  refine if_pos ?_
  rw [text, String.length_ofList, List.length_append, List.length_cons]
  omega

/-- What stands in two lists put together stands in one of them. -/
theorem append_eq_split {α : Type} {as bs before after : List α} {x : α}
    (h : as ++ bs = before ++ x :: after) :
    (∃ rest, before = as ++ rest ∧ bs = rest ++ x :: after) ∨
      ∃ rest, as = before ++ x :: rest ∧ after = rest ++ bs := by
  rcases List.append_eq_append_iff.1 h with ⟨rest, hbefore, hbs⟩ | ⟨rest, has, hrest⟩
  · exact .inl ⟨rest, hbefore, hbs⟩
  · cases rest with
    | nil => exact .inl ⟨[], by rw [has, List.append_nil, List.append_nil], hrest.symm⟩
    | cons r rest =>
      obtain ⟨rfl, hafter⟩ := List.cons.inj hrest
      exact .inr ⟨rest, has, hafter⟩

/-- Two digits are in one token exactly when all that stands between them are digits. -/
theorem Laid.holder_eq_iff {cs : List Char} {ts : List Token} (h : Laid cs ts) {x y : Char}
    (hx : x.isDigit = true) (hy : y.isDigit = true) {before between after : List Char}
    (hcs : cs = before ++ x :: (between ++ y :: after)) :
    holder ts (marks before).length = holder ts (marks (before ++ x :: between)).length ↔
      ∀ c ∈ between, c.isDigit = true := by
  induction h generalizing before with
  | nil => simp at hcs
  | @blank c cs ts hblank _ ih =>
    rcases append_eq_split (show [c] ++ cs = _ from hcs) with ⟨rest, rfl, hrest⟩ | ⟨rest, hc, _⟩
    · rw [List.singleton_append, List.cons_append, marks_blank hblank, marks_blank hblank]
      exact ih hrest
    · have hmem : x ∈ [c] := by simp [hc]
      rw [List.mem_singleton.1 hmem, Text.isDigit_of_isBlank hblank] at hx
      cases hx
  | @symbol symbol cs ts _ ih =>
    have hword := marks_symbol symbol
    have htext : (Token.symbol symbol).text.toList = symbol.text.toList := rfl
    rcases append_eq_split hcs with ⟨rest, rfl, hrest⟩ | ⟨rest, hsymbol, _⟩
    · rw [List.append_assoc, holder_append htext hword, holder_append htext hword,
        Nat.add_right_cancel_iff]
      exact ih hrest
    · obtain ⟨c, _, hchar, hc, _⟩ := symbol.exists_char
      have hmem : x ∈ [c] := by simp [← hchar, hsymbol]
      rw [List.mem_singleton.1 hmem, hc] at hx
      cases hx
  | @operand ds cs ts hds hbreak _ ih =>
    have hword := marks_of_digits hds.2
    have htext : (Token.operand (String.ofList ds)).text.toList = ds := String.toList_ofList
    rcases append_eq_split hcs with ⟨rest, rfl, hrest⟩ | ⟨rest, hdigits, htail⟩
    · rw [List.append_assoc, holder_append htext hword, holder_append htext hword,
        Nat.add_right_cancel_iff]
      exact ih hrest
    · rw [holder_operand hds.2 hdigits]
      -- The first digit stands in the operand; the second one may stand behind it.
      rcases append_eq_split htail.symm with ⟨gap, rfl, hgap⟩ | ⟨later, rfl, _⟩
      · have hsplit : before ++ x :: (rest ++ gap) = ds ++ gap := by simp [hdigits]
        rw [hsplit, holder_append htext hword]
        refine iff_of_false (by omega) fun hall => ?_
        cases gap with
        | nil =>
          rw [hbreak y (by rw [hgap]; rfl)] at hy
          cases hy
        | cons c gap =>
          have hc := hall c (List.mem_append_right _ (List.mem_cons_self ..))
          rw [hbreak c (by rw [hgap]; rfl)] at hc
          cases hc
      · have hsecond : ds = (before ++ x :: between) ++ y :: later := by simp [hdigits]
        rw [holder_operand hds.2 hsecond]
        refine iff_of_true rfl fun c hc => hds.2 c ?_
        rw [hsecond]
        exact List.mem_append_left _ (List.mem_append_right _ (List.mem_cons_of_mem _ hc))

/-! ## Tokens with gaps between them -/

/-- The texts in their order, each behind its gap, and the last gap. -/
def spaced (pieces : List (List Char × String)) (last : List Char) : List Char :=
  (pieces.flatMap fun p => p.1 ++ p.2.toList) ++ last

/-- The gaps are blanks, and there is one between any two texts. Each text is a
symbol or digits. -/
structure Spacing (pieces : List (List Char × String)) (last : List Char) : Prop where
  gaps : ∀ p ∈ pieces, ∀ c ∈ p.1, isBlank c = true
  last : ∀ c ∈ last, isBlank c = true
  between : ∀ p ∈ pieces.tail, p.1 ≠ []
  texts : ∀ p ∈ pieces, (∃ symbol : Symbol, p.2 = symbol.text) ∨ Figures p.2.toList

section

variable {pieces : List (List Char × String)} {last : List Char}

theorem spaced_cons (p : List Char × String) :
    spaced (p :: pieces) last = p.1 ++ (p.2.toList ++ spaced pieces last) := by
  rw [spaced, spaced, List.flatMap_cons, List.append_assoc, List.append_assoc]

theorem Spacing.tail {p : List Char × String} (h : Spacing (p :: pieces) last) :
    Spacing pieces last :=
  ⟨(List.forall_mem_cons.1 h.gaps).2, h.last, fun q hq => h.between q (List.mem_of_mem_tail hq),
    (List.forall_mem_cons.1 h.texts).2⟩

/-- Behind a text comes a gap, or nothing. -/
theorem Spacing.isBlank_head {p : List Char × String} (h : Spacing (p :: pieces) last) :
    ∀ c ∈ (spaced pieces last).head?, isBlank c = true := by
  intro c hc
  cases pieces with
  | nil => exact h.last c (List.mem_of_mem_head? hc)
  | cons q pieces =>
    obtain ⟨d, gap, hgap⟩ := List.exists_cons_of_ne_nil (h.between q (List.mem_cons_self ..))
    rw [spaced_cons, hgap] at hc
    cases hc
    exact h.tail.gaps q (List.mem_cons_self ..) c (by rw [hgap]; exact List.mem_cons_self ..)

theorem Laid.blanks {gap cs : List Char} {ts : List Token} (hgap : ∀ c ∈ gap, isBlank c = true)
    (h : Laid cs ts) : Laid (gap ++ cs) ts := by
  induction gap with
  | nil => exact h
  | cons c gap ih =>
    obtain ⟨hc, hgap⟩ := List.forall_mem_cons.1 hgap
    exact .blank hc (ih hgap)

/-- Digits are no symbol. -/
theorem ofText?_of_figures {s : String} (h : Figures s.toList) : Symbol.ofText? s = none := by
  rcases symbol_or_operand s with ⟨symbol, rfl⟩ | hnone
  · obtain ⟨c, _, htext, hc, _⟩ := symbol.exists_char
    rw [htext] at h
    rw [h.2 c (List.mem_singleton_self c)] at hc
    cases hc
  · exact hnone

theorem laid_spaced (h : Spacing pieces last) :
    Laid (spaced pieces last) (pieces.map fun p => ofText p.2) := by
  induction pieces with
  | nil =>
    have hlaid := Laid.nil.blanks h.last
    rwa [List.append_nil] at hlaid
  | cons p pieces ih =>
    have hlater := ih h.tail
    rw [spaced_cons, List.map_cons]
    refine .blanks (h.gaps p (List.mem_cons_self ..)) ?_
    rcases h.texts p (List.mem_cons_self ..) with ⟨symbol, hs⟩ | hdigits
    · rw [hs, ofText_text]
      exact .symbol symbol hlater
    · have hoperand := Laid.operand hdigits
        (fun c hc => Text.isDigit_of_isBlank (h.isBlank_head c hc)) hlater
      rwa [String.ofList_toList, ← ofText_of_none (ofText?_of_figures hdigits)] at hoperand

end

/-! ## The laws -/

/-- What becomes of a text: nothing but blanks is lost, each token is a symbol or
digits, and digits share a token exactly when only digits stand between them. -/
structure CutUp (cs : List Char) (ts : List Token) : Prop where
  joined : (ts.flatMap fun t => t.text.toList) = marks cs
  forms : ∀ t ∈ ts, (∃ s, t = .symbol s) ∨ ∃ ds, Figures ds ∧ t = .operand (String.ofList ds)
  runs : ∀ (x y : Char) (before between after : List Char), x.isDigit = true →
    y.isDigit = true → cs = before ++ x :: (between ++ y :: after) →
    (holder ts (marks before).length = holder ts (marks (before ++ x :: between)).length ↔
      ∀ c ∈ between, c.isDigit = true)

/-- A text is cut exactly when all its characters are allowed; else the refusal
names the first one that is not. Its tokens are the symbols and the longest runs of
digits in it. Symbols and digits with gaps between them are cut into the same texts
again. -/
theorem texts_are_cut_at_blanks_and_symbols :
    (∀ s, (∃ ts, scan s = .ok ts) ↔ ∀ c ∈ s.toList, Allowed c) ∧
      (∀ s, (¬ ∀ c ∈ s.toList, Allowed c) →
        ∃ before c after, s.toList = before ++ c :: after ∧ (∀ d ∈ before, Allowed d) ∧
          ¬ Allowed c ∧ ∃ e, scan s = .error e ∧ e.kind = .format ∧
            e.report.reason = "Unexpected character " ++ Text.quote c.toString) ∧
      (∀ s ts, scan s = .ok ts → CutUp s.toList ts) ∧
      ∀ pieces last, Spacing pieces last →
        ∃ ts, scan (String.ofList (spaced pieces last)) = .ok ts ∧
          ts.map text = pieces.map Prod.snd := by
  refine ⟨fun s => (outcome_cut [] s.toList).exists_iff, fun s hs => ?_, fun s ts h => ?_,
    fun pieces last h => ?_⟩
  · obtain ⟨before, c, after, hsplit, hbefore, hc, hscan⟩ :=
      (outcome_cut [] s.toList).exists_first hs
    exact ⟨before, c, after, hsplit, hbefore, hc, _, hscan, rfl, rfl⟩
  · have hlaid := scan_eq_ok_iff.1 h
    exact ⟨hlaid.joined, hlaid.forms, fun _ _ _ _ _ hx hy hcs => hlaid.holder_eq_iff hx hy hcs⟩
  · refine ⟨pieces.map fun p => ofText p.2, ?_, ?_⟩
    · rw [scan_eq_ok_iff, String.toList_ofList]
      exact laid_spaced h
    · rw [List.map_map]
      exact List.map_congr_left fun p _ => text_ofText p.2

/-- A text with two signs that are no symbols, digits that a blank and a symbol part,
and three texts between gaps, one of which is not ASCII. -/
theorem a_dollar_sign_and_digits_between_gaps :
    (∃ before c after, "1 $2€".toList = before ++ c :: after ∧ (∀ d ∈ before, Allowed d) ∧
        ¬ Allowed c ∧ ∃ e, scan "1 $2€" = .error e ∧ e.kind = .format ∧
          e.report.reason = "Unexpected character " ++ Text.quote c.toString) ∧
      (∃ ts, scan "12 3+45" = .ok ts ∧ CutUp "12 3+45".toList ts) ∧
      ∃ ts, scan "\u00a012 (\t007" = .ok ts ∧ ts.map text = ["12", "(", "007"] := by
  obtain ⟨htaken, hrefused, hcut, hspaced⟩ := texts_are_cut_at_blanks_and_symbols
  have hdollar : ¬ ∀ c ∈ "1 $2€".toList, Allowed c := fun h => absurd (h '$' (by decide)) (by decide)
  have hsum : ("12 3+45".toList.all fun c => decide (Allowed c)) = true := rfl
  obtain ⟨ts, hts⟩ := (htaken "12 3+45").2 fun c hc =>
    of_decide_eq_true (List.all_eq_true.1 hsum c hc)
  have hfigures : Figures "12".toList ∧ Figures "007".toList :=
    ⟨⟨by decide, List.all_eq_true.1 rfl⟩, by decide, List.all_eq_true.1 rfl⟩
  have hgaps : ([['\u00a0'], [' '], ['\t']].all fun gap => gap.all isBlank) = true := rfl
  have hspacing : Spacing [(['\u00a0'], "12"), ([' '], "("), (['\t'], "007")] [] := by
    refine ⟨fun p hp => List.all_eq_true.1 (List.all_eq_true.1 hgaps _ (List.mem_map_of_mem hp)),
      by simp, by simp, ?_⟩
    simp only [List.forall_mem_cons]
    exact ⟨.inr hfigures.1, .inl ⟨.opening, rfl⟩, .inr hfigures.2, by simp⟩
  exact ⟨hrefused _ hdollar, ⟨ts, hts, hcut _ _ hts⟩, hspaced _ _ hspacing⟩

end Token

end Abacus
