-- The laws of joined tokens. Texts with one space between them are cut into
-- the same tokens again, but for the blanks around an operand, which do not
-- change what it is read as. So they come to the same value, as long as no
-- operand has a minus, which would be cut off as an operator.
import Abacus.Proofs.Reordering
import Abacus.Proofs.Canonical

namespace Abacus

/-! ## Operands without the blanks around them -/

/-- What reads as a numeral reads as the same one without the blanks around it. -/
theorem Numeral.ofText_trimBlanks {s : String} {a : Numeral} (h : ofText s = .ok a) :
    ofText (String.ofList (Text.trimBlanks s.toList)) = .ok a := by
  obtain ⟨d, hd, ha⟩ := exists_of_bind_ok h
  obtain ⟨ds, negative, hne, htrim, rfl⟩ := Decimal.written_of_ofText hd
  have hagain : Text.trimBlanks (String.ofList (Text.trimBlanks s.toList)).toList =
      Decimal.written ds negative := by
    rw [String.toList_ofList, htrim,
      Text.trimBlanks_eq_self fun c hc => Decimal.isBlank_of_mem_written hc]
  unfold ofText
  rw [Decimal.ofText_of_written hne hagain]
  exact ha

/-- The token without the blanks around its text; a symbol has none. -/
def Token.trimmed : Token → Token
  | symbol s => symbol s
  | operand s => operand (String.ofList (Text.trimBlanks s.toList))
  | foreign d => foreign d

namespace Expression

theorem map_trimmed_release (waiting : List Waiting) :
    (release waiting).map Token.trimmed = release waiting := by
  induction waiting with
  | nil => rfl
  | cons w waiting ih =>
    cases w with
    | opening => exact ih
    | operator op => exact congrArg (_ :: ·) ih

theorem isText_trimmed (t : Token) : isText t.trimmed = isText t := by
  cases t <;> rfl

/-- Tokens without blanks take the same places. -/
theorem reorder_trimmed {whole whole' : List Token} {waiting : List Waiting}
    {ts out : List Token} (h : reorder whole waiting ts = .ok out) :
    reorder whole' waiting (ts.map Token.trimmed) = .ok (out.map Token.trimmed) := by
  induction ts generalizing waiting out with
  | nil =>
    rw [reorder] at h
    split at h
    · rename_i hall
      cases h
      rw [List.map_nil, reorder, if_pos hall, map_trimmed_release]
    · cases h
  | cons t ts ih =>
    cases t with
    | operand s =>
      obtain ⟨later, hl, rfl⟩ := exists_of_map_ok h
      exact congrArg (Except.map _) (ih hl)
    | foreign d =>
      cases d with
      | list _ => cases h
      | _ =>
        obtain ⟨later, hl, rfl⟩ := exists_of_map_ok h
        exact congrArg (Except.map _) (ih hl)
    | symbol symbol =>
      cases symbol with
      | opening => exact ih h
      | closing =>
        obtain ⟨ops, rfl | ⟨below, rfl⟩⟩ := operators_or_opening waiting
        · rw [reorder_closing_of_operators] at h
          cases h
        · rw [reorder_closing] at h
          obtain ⟨later, hl, rfl⟩ := exists_of_map_ok h
          rw [List.map_cons, Token.trimmed, reorder_closing, ih hl, List.map_append,
            map_trimmed_release]
          rfl
      | operator op =>
        rw [reorder] at h
        obtain ⟨later, hl, rfl⟩ := exists_of_map_ok h
        rw [List.map_cons, Token.trimmed, reorder, ih hl, List.map_append, map_trimmed_release]
        rfl

/-- Tokens without blanks have the same values. -/
theorem run_trimmed {whole whole' : List Token} {values out : List Numeral} {ts : List Token}
    (h : run whole values ts = .ok out) : run whole' values (ts.map Token.trimmed) = .ok out := by
  fun_induction run whole values ts generalizing out with
  | case1 => exact h
  | case2 values s rest ih =>
    obtain ⟨a, ha, hrest⟩ := exists_of_bind_ok h
    rw [List.map_cons, Token.trimmed, run, Numeral.ofText_trimBlanks ha]
    exact ih a hrest
  | case3 | case4 | case6 | case7 => cases h
  | case5 op rest right left below ih =>
    obtain ⟨a, ha, hrest⟩ := exists_of_bind_ok h
    rw [List.map_cons, Token.trimmed, run, ha]
    exact ih a hrest

theorem infixValue_trimmed {ts : List Token} {z : Numeral} (h : infixValue ts = .ok z) :
    infixValue (ts.map Token.trimmed) = .ok z := by
  obtain ⟨ordered, hordered, htext, hrun⟩ := infixValue_eq_ok_iff.1 h
  refine infixValue_eq_ok_iff.2 ⟨ordered.map Token.trimmed, reorder_trimmed hordered, ?_,
    run_trimmed hrun⟩
  rw [List.all_map, ← htext]
  exact congrArg ordered.all (funext isText_trimmed)

/-! ## Operands of an expression with a value -/

theorem exists_ofText_of_run {whole : List Token} {values out : List Numeral} {ts : List Token}
    (h : run whole values ts = .ok out) {s : String} (hs : Token.operand s ∈ ts) :
    ∃ a, Numeral.ofText s = .ok a := by
  fun_induction run whole values ts generalizing out with
  | case1 => cases hs
  | case2 values t rest ih =>
    obtain ⟨a, ha, hrest⟩ := exists_of_bind_ok h
    rcases List.mem_cons.1 hs with heq | hs
    · cases heq
      exact ⟨a, ha⟩
    · exact ih a hrest hs
  | case3 | case4 | case6 | case7 => cases h
  | case5 op rest right left below ih =>
    obtain ⟨a, _, hrest⟩ := exists_of_bind_ok h
    rcases List.mem_cons.1 hs with heq | hs
    · cases heq
    · exact ih a hrest hs

/-- An expression with a value has numerals for operands. -/
theorem exists_ofText_of_infixValue {ts : List Token} {z : Numeral} (h : infixValue ts = .ok z)
    {s : String} (hs : Token.operand s ∈ ts) : ∃ a, Numeral.ofText s = .ok a := by
  obtain ⟨ordered, hordered, _, hrun⟩ := infixValue_eq_ok_iff.1 h
  have hkept : Token.operand s ∈ ts.filter (!isSymbol ·) := List.mem_filter.2 ⟨hs, rfl⟩
  rw [← operands_reorder hordered] at hkept
  exact exists_ofText_of_run hrun (List.mem_filter.1 hkept).1

end Expression

/-! ## The joined text -/

/-- Without a minus a numeral is digits and the blanks around them. -/
theorem Numeral.digits_of_ofText {s : String} {a : Numeral} (h : ofText s = .ok a)
    (hminus : '-' ∉ s.toList) : Text.trimBlanks s.toList ≠ [] ∧
      ∀ c ∈ Text.trimBlanks s.toList, (Decimal.digit? c).isSome = true := by
  obtain ⟨_, hd, _⟩ := exists_of_bind_ok h
  obtain ⟨ds, negative, hne, htrim, _⟩ := Decimal.written_of_ofText hd
  obtain ⟨left, right, _, _, hs⟩ := Text.exists_blanks_around s.toList
  have hbare : negative = false := by
    cases negative with
    | false => rfl
    | true =>
      have hmem : '-' ∈ Text.trimBlanks s.toList := by
        rw [htrim]
        exact List.mem_cons_self ..
      rw [hs] at hminus
      exact absurd (List.mem_append_left _ (List.mem_append_right _ hmem)) hminus
  subst hbare
  rw [htrim]
  refine ⟨by simpa [Decimal.written] using hne, ?_⟩
  intro c hc
  obtain ⟨d, _, rfl⟩ := List.mem_map.1 hc
  rw [Decimal.digit?_digitChar]
  rfl

namespace Token

/-- The text is a symbol, or a numeral without a minus. -/
def Joinable (s : String) : Prop :=
  Symbol.ofText? s = none → '-' ∉ s.toList ∧ ∃ a, Numeral.ofText s = .ok a

/-- Before a blank or the end such a text is one token. -/
theorem cut_text (whole : String) {s : String} (hs : Joinable s) {rest : List Char}
    (hrest : ∀ c ∈ rest.head?, Text.isBlank c = true) :
    cut whole [] (s.toList ++ rest) = (cut whole [] rest).map ((ofText s).trimmed :: ·) := by
  rcases symbol_or_operand s with ⟨symbol, rfl⟩ | hnone
  · rw [cut_symbol, ofText_text]
    rfl
  · obtain ⟨hminus, a, ha⟩ := hs hnone
    obtain ⟨hne, hdigits⟩ := Numeral.digits_of_ofText ha hminus
    obtain ⟨left, right, hl, hr, hchars⟩ := Text.exists_blanks_around s.toList
    have hbreak : ∀ c ∈ (right ++ rest).head?, Text.isBlank c = true := by
      cases right with
      | nil => exact hrest
      | cons c right => simpa using hr c (List.mem_cons_self ..)
    conv => lhs; rw [hchars]
    rw [List.append_assoc, List.append_assoc, cut_blanks whole hl,
      cut_operand whole hne hdigits fun c hc => digit?_of_isBlank (hbreak c hc),
      cut_blanks whole hr, ofText_of_none hnone]
    rfl

theorem cut_joined (whole : String) {texts : List String} (h : ∀ s ∈ texts, Joinable s) :
    cut whole [] (" ".intercalate texts).toList =
      .ok (texts.map fun s => (ofText s).trimmed) := by
  rw [String.toList_intercalate]
  induction texts with
  | nil => rfl
  | cons s texts ih =>
    obtain ⟨hs, htexts⟩ := List.forall_mem_cons.1 h
    cases texts with
    | nil =>
      rw [List.map_singleton, List.intercalate_singleton, ← List.append_nil s.toList,
        cut_text whole hs (by simp)]
      rfl
    | cons t texts =>
      have hspace : ∀ c ∈ " ".toList, Text.isBlank c = true := List.all_eq_true.1 rfl
      rw [List.map_cons] at ih
      rw [List.map_cons, List.map_cons, List.intercalate_cons_cons, List.append_assoc,
        cut_text whole hs (by simpa using hspace), cut_blanks whole hspace, ih htexts]
      rfl

end Token

namespace Expression

/-- Texts with one space between them come to what the texts themselves come
to, unless an operand has a minus. -/
theorem infixValue_joined {texts : List String} {z : Numeral}
    (h : infixValue (texts.map Token.ofText) = .ok z)
    (hminus : ∀ s ∈ texts, Symbol.ofText? s = none → '-' ∉ s.toList) :
    (Datum.text (" ".intercalate texts)).tokens >>= infixValue = .ok z := by
  have hjoinable : ∀ s ∈ texts, Token.Joinable s := by
    intro s hs hnone
    refine ⟨hminus s hs hnone, exists_ofText_of_infixValue h ?_⟩
    rw [← Token.ofText_of_none hnone]
    exact List.mem_map_of_mem hs
  have htokens : (Datum.text (" ".intercalate texts)).tokens =
      .ok ((texts.map Token.ofText).map Token.trimmed) := by
    rw [List.map_map]
    exact Token.cut_joined _ hjoinable
  rw [htokens]
  exact infixValue_trimmed h

-- a minus in an operand is cut off, and then lacks its left side
example : (∃ z, infixValue (["-2"].map Token.ofText) = .ok z) ∧
    ∃ e, (Datum.text (" ".intercalate ["-2"])).tokens >>= infixValue = .error e :=
  ⟨⟨_, rfl⟩, _, rfl⟩

end Expression

end Abacus
