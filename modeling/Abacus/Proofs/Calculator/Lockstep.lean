-- Calculators in lockstep. Two of them are given the same calls, with the same
-- numbers in different forms: numerals of any base, integers, texts. After
-- each call they show the same, and they refuse the same calls with the same
-- report.
import Mathlib.Data.List.Forall2
import Abacus.Proofs.Interchange
import Abacus.Proofs.Calculator.Run

namespace Abacus

/-! ## Outcomes side by side -/

/-- Both outcomes are results that stand in the relation, or errors that are
reported alike. -/
inductive Matches {α : Type} (r : α → α → Prop) : Except Error α → Except Error α → Prop
  | ok {a b : α} : r a b → Matches r (.ok a) (.ok b)
  | error {e f : Error} : e.report = f.report → Matches r (.error e) (.error f)

section

variable {α β : Type} {r : α → α → Prop} {x y : Except Error α}

theorem Matches.bind {s : β → β → Prop} {f g : α → Except Error β} (h : Matches r x y)
    (hfg : ∀ a b, r a b → Matches s (f a) (g b)) : Matches s (x >>= f) (y >>= g) := by
  cases h with
  | ok h => exact hfg _ _ h
  | error h => exact .error h

/-- What is worked out alike from related results is told alike. -/
theorem Matches.map_told {f g : α → β} (h : Matches r x y)
    (hfg : ∀ a b, r a b → f a = g b) : (told x).map f = (told y).map g := by
  cases h with
  | ok h => exact congrArg Except.ok (hfg _ _ h)
  | error h => exact congrArg Except.error h

theorem matches_of_told (h : told x = told y) : Matches (· = ·) x y := by
  cases x with
  | error e =>
    cases y with
    | error f => exact .error (Except.error.inj h)
    | ok b => cases h
  | ok a =>
    cases y with
    | error f => cases h
    | ok b => exact .ok (Except.ok.inj h)

theorem matches_self (hr : ∀ a, r a a) (x : Except Error α) : Matches r x x := by
  cases x with
  | error e => exact .error rfl
  | ok a => exact .ok (hr a)

end

/-! ## Data and calls of one meaning -/

/-- The datum is read as this integer. -/
def Datum.Reads (d : Datum) (n : Int) : Prop := ∃ a, Numeral.ofDatum d = .ok a ∧ a.toInt = n

/-- Two forms of one number, or one datum twice. -/
inductive Datum.Alike : Datum → Datum → Prop
  | number {d e : Datum} {n : Int} : d.Reads n → e.Reads n → Alike d e
  | same (d : Datum) : Alike d d

/-- The same call, with numbers of two forms; an expression has only one. -/
inductive Call.Alike : Call → Call → Prop
  | operate (op : Operator) {d e : Datum} : d.Alike e → Alike (.operate op d) (.operate op e)
  | root : Alike .root .root
  | evaluate (d : Datum) : Alike (.evaluate d) (.evaluate d)
  | clear : Alike .clear .clear
  | set {d e : Datum} : d.Alike e → Alike (.set d) (.set e)
  | undo : Alike .undo .undo

/-- Data of one meaning are read as numerals of one integer, or refused alike. -/
theorem Datum.Alike.ofDatum {d e : Datum} (h : d.Alike e) :
    Matches (fun a b => a.toInt = b.toInt) (Numeral.ofDatum d) (Numeral.ofDatum e) := by
  cases h with
  | number hd he =>
    obtain ⟨a, ha, hm⟩ := hd
    obtain ⟨b, hb, hn⟩ := he
    rw [ha, hb]
    exact .ok (hm.trans hn.symm)
  | same =>
    apply matches_self
    intro a
    rfl

/-! ## Entries of one meaning -/

theorem Entry.same_iff {e f : Entry} :
    e.same f = true ↔ e.value.toInt = f.value.toInt ∧ e.action.same f.action = true := by
  rw [Entry.same, Bool.and_eq_true, beq_iff_eq]

theorem Entry.same_self (e : Entry) : e.same e = true := by
  rw [Entry.same_iff]
  refine ⟨rfl, ?_⟩
  cases e.action <;> simp [Action.same]

theorem Action.text_of_same {x y : Action} (h : x.same y = true) :
    x.name = y.name ∧ x.operands.map Operand.text = y.operands.map Operand.text := by
  cases x with
  | init a =>
    cases y with
    | init b => exact ⟨rfl, by simp [operands, Operand.text, Numeral.text_eq (beq_iff_eq.1 h)]⟩
    | _ => cases h
  | operate op a =>
    cases y with
    | operate oq b =>
      obtain ⟨hop, hab⟩ := (Bool.and_eq_true ..).mp h
      rw [beq_iff_eq] at hop hab
      exact ⟨congrArg Operator.name hop, by simp [operands, Operand.text, Numeral.text_eq hab]⟩
    | _ => cases h
  | root =>
    cases y with
    | root => exact ⟨rfl, rfl⟩
    | _ => cases h
  | evaluate s =>
    cases y with
    | evaluate t => exact ⟨rfl, by rw [beq_iff_eq.1 h]⟩
    | _ => cases h
  | clear =>
    cases y with
    | clear => exact ⟨rfl, rfl⟩
    | _ => cases h
  | set a =>
    cases y with
    | set b => exact ⟨rfl, by simp [operands, Operand.text, Numeral.text_eq (beq_iff_eq.1 h)]⟩
    | _ => cases h

theorem Entry.text_of_same {e f : Entry} (h : e.same f = true) : e.text = f.text := by
  obtain ⟨hvalue, haction⟩ := Entry.same_iff.1 h
  obtain ⟨hname, hoperands⟩ := Action.text_of_same haction
  unfold Entry.text
  rw [Numeral.text_eq hvalue, hname, hoperands]

theorem Entry.texts_of_same {as bs : List Entry}
    (h : List.Forall₂ (fun e f => e.same f = true) as bs) :
    as.map Entry.text = bs.map Entry.text := by
  induction h with
  | nil => rfl
  | cons hef _ ih => rw [List.map_cons, List.map_cons, Entry.text_of_same hef, ih]

/-- From values of one integer a call adds entries of one meaning, if it adds
any. -/
theorem Call.Alike.added? {p q : Call} (h : p.Alike q) {a b : Numeral} (hab : a.toInt = b.toInt) :
    (p = q ∧ (p = .clear ∨ p = .undo)) ∨
      ∃ x y, p.added? a = some x ∧ q.added? b = some y ∧
        Matches (fun e f => e.same f = true) x y := by
  cases h with
  | clear => exact .inl ⟨rfl, .inl rfl⟩
  | undo => exact .inl ⟨rfl, .inr rfl⟩
  | operate op hd =>
    refine .inr ⟨_, _, rfl, rfl, hd.ofDatum.bind fun y z hyz => ?_⟩
    refine (matches_of_told (Numeral.told_apply (.operator op) hab hyz)).bind fun m n hmn => ?_
    exact .ok (Entry.same_iff.2 ⟨congrArg Numeral.toInt hmn, by simp [Action.same, hyz]⟩)
  | root =>
    refine .inr ⟨_, _, rfl, rfl, ?_⟩
    refine (matches_of_told (Numeral.told_root hab)).bind fun m n hmn => ?_
    exact .ok (Entry.same_iff.2 ⟨congrArg Numeral.toInt hmn, rfl⟩)
  | evaluate d =>
    -- an evaluation does not look at the value it replaces
    refine .inr ⟨_, _, rfl, rfl, matches_self Entry.same_self _⟩
  | set hd =>
    refine .inr ⟨_, _, rfl, rfl, hd.ofDatum.bind fun m n hmn => ?_⟩
    exact .ok (Entry.same_iff.2 ⟨hmn, by simp [Action.same, hmn]⟩)

/-- What a refused call leaves comes from an expression, which has one form. -/
theorem Call.Alike.stray? {p q : Call} (h : p.Alike q) : p.stray? = q.stray? := by
  cases h <;> rfl

namespace Calculator

/-! ## Calculators of one meaning -/

/-- Both calculators hold one number, and have come to it by the same steps. -/
structure Alike (c d : Calculator) : Prop where
  value : c.value.toInt = d.value.toInt
  history : List.Forall₂ (fun e f => e.same f = true) c.history d.history

theorem Alike.push {c d : Calculator} {e f : Entry} (h : Alike c d) (hef : e.same f = true) :
    Alike (c.push e) (d.push f) := by
  exact ⟨(Entry.same_iff.1 hef).1, .cons hef h.history⟩

theorem Alike.stopped {c d : Calculator} (h : Alike c d) (stray : Option Numeral) :
    Alike (c.stopped stray) (d.stopped stray) := by
  cases stray with
  | none => exact h
  | some z => exact ⟨rfl, h.history⟩

theorem Alike.undo {c d : Calculator} (h : Alike c d) :
    Alike (c.answer .undo).1 (d.answer .undo).1 ∧ (c.answer .undo).2 = (d.answer .undo).2 := by
  obtain ⟨a, as⟩ := c
  obtain ⟨b, bs⟩ := d
  obtain ⟨hv, hh⟩ := h
  match as, bs, hh with
  | [], [], _ => exact ⟨⟨hv, .nil⟩, rfl⟩
  | [_], [_], hh => exact ⟨⟨hv, hh⟩, rfl⟩
  | _ :: last :: _, _ :: last' :: _, .cons _ (.cons hlast hbefore) =>
    exact ⟨⟨(Entry.same_iff.1 hlast).1, .cons hlast hbefore⟩, rfl⟩

/-- One call keeps them alike, and is refused by both or by neither. -/
theorem Alike.answer {c d : Calculator} {p q : Call} (h : Alike c d) (hpq : p.Alike q) :
    Alike (c.answer p).1 (d.answer q).1 ∧
      (c.answer p).2.map Error.report = (d.answer q).2.map Error.report := by
  rcases hpq.added? h.value with ⟨rfl, rfl | rfl⟩ | ⟨x, y, hx, hy, hxy⟩
  · exact ⟨⟨rfl, .cons rfl .nil⟩, rfl⟩
  · obtain ⟨h1, h2⟩ := h.undo
    exact ⟨h1, by rw [h2]⟩
  · cases hxy with
    | ok hef =>
      rw [answer_of_ok hx, answer_of_ok hy]
      exact ⟨h.push hef, rfl⟩
    | error hef =>
      rw [answer_of_error hx, answer_of_error hy, hpq.stray?]
      exact ⟨h.stopped _, congrArg some hef⟩

/-! ## What is seen of a run -/

/-- What a caller sees after a call. -/
structure View where
  value : Int
  text : String
  /-- The entries as text, the newest first. -/
  history : List String
  /-- The report, if the call was refused. -/
  refusal : Option Report

def view (result : Calculator × Option Error) : View where
  value := result.1.value.toInt
  text := result.1.text
  history := result.1.history.map Entry.text
  refusal := result.2.map Error.report

/-- What a caller sees of a run, from the new calculator on. -/
def session (initial : Datum) (calls : List Call) : Except Report (List View) :=
  (told (start initial)).map fun c => view (c, none) :: (c.trace calls).map view

theorem Alike.view {c d : Calculator} (h : Alike c d) {x y : Option Error}
    (hxy : x.map Error.report = y.map Error.report) :
    Calculator.view (c, x) = Calculator.view (d, y) := by
  have htext : c.text = d.text := by
    unfold Calculator.text
    rw [Numeral.text_eq h.value, h.history.length_eq]
  unfold Calculator.view
  rw [h.value, htext, Entry.texts_of_same h.history, hxy]

theorem Alike.trace {c d : Calculator} {ps qs : List Call} (h : Alike c d)
    (hpq : List.Forall₂ Call.Alike ps qs) :
    (c.trace ps).map Calculator.view = (d.trace qs).map Calculator.view := by
  induction hpq generalizing c d with
  | nil => rfl
  | cons hcall _ ih =>
    obtain ⟨hnext, hrefusal⟩ := h.answer hcall
    rw [Calculator.trace, Calculator.trace, List.map_cons, List.map_cons, ih hnext,
      hnext.view hrefusal]

/-- Data of one meaning start calculators of one meaning. -/
theorem start_alike {initial initial' : Datum} (h : initial.Alike initial') :
    Matches Alike (start initial) (start initial') := by
  unfold start
  apply h.ofDatum.bind
  intro a b hab
  exact .ok ⟨hab, .cons (Entry.same_iff.2 ⟨hab, by simp [Action.same, hab]⟩) .nil⟩

theorem session_alike {initial initial' : Datum} {calls calls' : List Call}
    (h : initial.Alike initial') (hcalls : List.Forall₂ Call.Alike calls calls') :
    session initial calls = session initial' calls' := by
  unfold session
  apply (start_alike h).map_told
  intro c d hcd
  rw [hcd.view rfl, hcd.trace hcalls]

/-! ## The laws -/

/-- The form that a number is given in never shows: not in what is worked out
from numerals of one integer, and not in the runs of calculators that are
given the same numbers. -/
theorem the_form_of_a_number_never_shows :
    (∀ a b c d : Numeral, a.toInt = c.toInt → b.toInt = d.toInt →
        Numeral.Interchangeable a b c d) ∧
      ∀ (initial initial' : Datum) (calls calls' : List Call), initial.Alike initial' →
        List.Forall₂ Call.Alike calls calls' →
        session initial calls = session initial' calls' :=
  ⟨fun _ _ _ _ ha hb => Numeral.interchangeable ha hb,
    fun _ _ _ _ h hcalls => session_alike h hcalls⟩

/-- Seven as bits, as an integer and as text, with a division by zero on the way. -/
theorem seven_in_three_forms :
    let seven : Numeral := .ofDigits 2 [1, 1, 1] false (by decide) (by decide)
    Numeral.Interchangeable seven seven (.ofInt 7) (.ofInt 7) ∧
      session (.numeral seven) [.operate .divide (.text "0"), .set (.numeral seven), .undo] =
        session (.text "7") [.operate .divide (.integer 0), .set (.integer 7), .undo] := by
  intro seven
  have hseven : seven.toInt = 7 := by decide
  have hint : (Numeral.ofInt 7).toInt = 7 := Numeral.toInt_ofInt 7
  have hbits : (Datum.numeral seven).Reads 7 := ⟨seven, rfl, hseven⟩
  have htext : (Datum.text "7").Reads 7 := ⟨_, rfl, by decide⟩
  have hzero : (Datum.text "0").Alike (.integer 0) :=
    @Datum.Alike.number _ _ 0 ⟨_, rfl, by decide⟩ ⟨_, rfl, Numeral.toInt_ofInt 0⟩
  have hset : (Datum.numeral seven).Alike (.integer 7) := .number hbits ⟨_, rfl, hint⟩
  have h := hseven.trans hint.symm
  exact ⟨the_form_of_a_number_never_shows.1 _ _ _ _ h h,
    the_form_of_a_number_never_shows.2 _ _ _ _ (.number hbits htext)
      (.cons (.operate _ hzero) (.cons (.set hset) (.cons .undo .nil)))⟩

end Calculator

end Abacus
