-- The laws of powers. The weight of a place is a power of the base. Halving the
-- exponent again and again comes to an end, and the table that it keeps never holds
-- anything but powers. An exponent may be an integer of any size, but a numeral only
-- if it fits a machine word.
import Mathlib.Algebra.Ring.Int.Defs
import Mathlib.Algebra.Ring.Nat
import Abacus.Numeral.Operations
import Abacus.Proofs.Canonical

namespace Abacus

theorem Digits.weight_eq_pow (base place : Nat) : weight base place = base ^ place := by
  induction place with
  | zero => rfl
  | succ n ih => rw [weight_succ, ih, pow_succ, mul_comm]

namespace Decimal

/-! ## How the table fills -/

/-- One call for the power to `n`, from the table that it finds on: the power, the
table that it leaves, and the tables before that one, newest first. There is one
rule for a power that the table holds, one for an even and one for an odd exponent. -/
inductive Called (a : Decimal) : Nat → PowerTable → Decimal → PowerTable → List PowerTable → Prop
  | known {n : Nat} {table : PowerTable} {power : Decimal} :
      table.lookup n = some power → Called a n table power table []
  | even {n : Nat} {table now : PowerTable} {half : Decimal} {before : List PowerTable} :
      table.lookup n = none → n % 2 = 0 → Called a (n / 2) table half now before →
      Called a n table (half.mul half) ((n, half.mul half) :: now) (now :: before)
  | odd {n : Nat} {table now : PowerTable} {half : Decimal} {before : List PowerTable} :
      table.lookup n = none → n % 2 = 1 → Called a (n / 2) table half now before →
      Called a n table (a.mul (half.mul half)) ((n, a.mul (half.mul half)) :: now) (now :: before)

section

variable {a power : Decimal} {n : Nat} {table now : PowerTable} {before : List PowerTable}

theorem ne_zero_of_lookup (hzero : (table.lookup 0).isSome) (hnone : table.lookup n = none) :
    n ≠ 0 := by
  rintro rfl
  rw [hnone] at hzero
  cases hzero

/-- The exponent gets smaller with every call, so the calls end for every exponent
once the table holds the power to zero. -/
theorem exists_called (a : Decimal) (n : Nat) (hzero : (table.lookup 0).isSome) :
    ∃ power now before, Called a n table power now before := by
  induction n using Nat.strongRecOn with
  | _ n ih =>
    cases hlookup : table.lookup n with
    | some known => exact ⟨known, table, [], .known hlookup⟩
    | none =>
      have hn := ne_zero_of_lookup hzero hlookup
      obtain ⟨half, now, before, hhalf⟩ := ih (n / 2) (Nat.div_lt_self (by omega) (by decide))
      rcases Nat.mod_two_eq_zero_or_one n with heven | hodd
      · exact ⟨_, _, _, .even hlookup heven hhalf⟩
      · exact ⟨_, _, _, .odd hlookup hodd hhalf⟩

theorem Called.powWith_eq (h : Called a n table power now before)
    (hzero : (table.lookup 0).isSome) : powWith a n table = (power, now) := by
  induction h with
  | known hlookup => rw [powWith, hlookup]
  | even hlookup heven _ ih =>
    have hn := ne_zero_of_lookup hzero hlookup
    rw [powWith, hlookup]
    simp only [dif_neg hn, ih hzero, heven]
    rfl
  | odd hlookup hodd _ ih =>
    have hn := ne_zero_of_lookup hzero hlookup
    rw [powWith, hlookup]
    simp only [dif_neg hn, ih hzero, hodd]
    rfl

end

/-! ## The table holds powers only -/

/-- Every entry of the table is the power to its exponent. -/
def PowerTable.Sound (a : Decimal) (table : PowerTable) : Prop :=
  ∀ n v, table.lookup n = some v → v.toInt = a.toInt ^ n

theorem PowerTable.sound_start (a : Decimal) : (start a).Sound a := by
  intro n v h
  simp only [start, List.lookup_cons, List.lookup_nil] at h
  split at h
  · rename_i h0
    cases h
    simp only [beq_iff_eq] at h0
    simp [h0]
  · split at h
    · rename_i h1
      cases h
      simp only [beq_iff_eq] at h1
      simp [h1]
    · cases h

theorem PowerTable.Sound.cons {a v : Decimal} {n : Nat} {table : PowerTable}
    (h : table.Sound a) (hv : v.toInt = a.toInt ^ n) : Sound a ((n, v) :: table) := by
  intro k w hk
  simp only [List.lookup_cons] at hk
  split at hk
  · rename_i h0
    cases hk
    simp only [beq_iff_eq] at h0
    rw [h0, hv]
  · exact h k w hk

theorem toInt_square {a half : Decimal} {n : Nat} (h : half.toInt = a.toInt ^ (n / 2)) :
    (half.mul half).toInt = a.toInt ^ (n - n % 2) := by
  rw [toInt_mul, h, ← Int.pow_add]
  congr 1
  omega

/-- From a sound table a call gives the right power, and every table on the way is
sound. -/
theorem Called.sound {a power : Decimal} {n : Nat} {table now : PowerTable}
    {before : List PowerTable} (h : Called a n table power now before) (hsound : table.Sound a) :
    power.toInt = a.toInt ^ n ∧ ∀ t ∈ now :: before, t.Sound a := by
  induction h with
  | known hlookup => exact ⟨hsound _ _ hlookup, by simpa using hsound⟩
  | even _ heven _ ih =>
    obtain ⟨hhalf, htables⟩ := ih hsound
    have hpower := toInt_square hhalf
    rw [heven, Nat.sub_zero] at hpower
    exact ⟨hpower, List.forall_mem_cons.2 ⟨(htables _ (by simp)).cons hpower, htables⟩⟩
  | @odd n _ _ half _ _ hodd _ ih =>
    obtain ⟨hhalf, htables⟩ := ih hsound
    have hpower : (a.mul (half.mul half)).toInt = a.toInt ^ n := by
      rw [toInt_mul, toInt_square hhalf, hodd, Int.mul_comm, ← Int.pow_succ]
      congr 1
      omega
    exact ⟨hpower, List.forall_mem_cons.2 ⟨(htables _ (by simp)).cons hpower, htables⟩⟩

theorem exists_called_start (a : Decimal) (n : Nat) :
    ∃ now before, Called a n (.start a) (a.pow n) now before := by
  have hzero : ((PowerTable.start a).lookup 0).isSome := rfl
  obtain ⟨power, now, before, h⟩ := exists_called a n hzero
  have hpower : a.pow n = power := congrArg Prod.fst (h.powWith_eq hzero)
  exact ⟨now, before, hpower ▸ h⟩

end Decimal

namespace Numeral

/-! ## Exponents -/

section

variable {a e : Numeral} {n : Int}

theorem powDatum_integer (a : Numeral) (n : Int) : a.powDatum (.integer n) = .ok (a.pow n) := rfl

theorem pow_of_neg (h : n < 0) : a.pow n = zero := by
  unfold pow
  rw [if_pos h]

theorem pow_natCast (a : Numeral) (n : Nat) : a.pow n = (a.toDecimal.pow n).toNumeral := by
  unfold pow
  rw [if_neg (by omega), Int.toNat_natCast]

theorem pow_zero_eq_one (a : Numeral) : a.pow 0 = one := by
  have hknown : a.toDecimal.pow 0 = .one := by
    unfold Decimal.pow
    rw [Decimal.powWith]
    rfl
  exact (pow_natCast a 0).trans (congrArg Decimal.toNumeral hknown)

/-- The integer is one of a machine word. -/
def FitsWord (n : Int) : Prop := -(2 ^ 63) ≤ n ∧ n ≤ 2 ^ 63 - 1

instance (n : Int) : Decidable (FitsWord n) := inferInstanceAs (Decidable (_ ∧ _))

theorem fitsWord_iff : FitsWord n ↔ wordMin ≤ n ∧ n ≤ wordMax := by
  have hmin : wordMin = -(2 ^ 63) := by decide
  have hmax : wordMax = 2 ^ 63 - 1 := by decide
  rw [hmin, hmax, FitsWord]

theorem powNumeral_of_fitsWord (h : FitsWord e.toInt) : a.powNumeral e = .ok (a.pow e.toInt) := by
  unfold powNumeral toWord
  rw [if_pos (fitsWord_iff.1 h)]
  rfl

theorem powNumeral_of_not_fitsWord (h : ¬ FitsWord e.toInt) :
    a.powNumeral e = .error (.outsideWord e) := by
  unfold powNumeral toWord
  rw [if_neg fun hword => h (fitsWord_iff.2 hword)]
  rfl

end

/-! ## The laws -/

/-- The power to an integer that is not below zero is worked out in finitely many
calls, while every table on the way holds powers only, and it is exact. To zero it is
one, whatever the number, and to an integer below zero it is zero. A numeral as
exponent does what its integer does, as long as that fits a machine word, and is
refused exactly where it does not. -/
theorem powers_are_exact (a : Numeral) :
    (∀ n : Nat, ∃ power now before,
        Decimal.Called a.toDecimal n (.start a.toDecimal) power now before ∧
          (∀ table ∈ now :: before, ∀ k v, table.lookup k = some v → v.toInt = a.toInt ^ k) ∧
          a.powDatum (.integer n) = .ok power.toNumeral ∧
          Exact (a.toInt ^ n) power.toNumeral) ∧
      a.powDatum (.integer 0) = .ok one ∧
      (∀ n : Int, n < 0 → a.powDatum (.integer n) = .ok zero) ∧
      ∀ e : Numeral,
        (FitsWord e.toInt → a.powDatum (.numeral e) = a.powDatum (.integer e.toInt)) ∧
          ((∃ refusal, a.powDatum (.numeral e) = .error refusal ∧ refusal.kind = .overflow) ↔
            ¬ FitsWord e.toInt) := by
  refine ⟨?_, ?_, ?_, ?_⟩
  · intro n
    obtain ⟨now, before, hcalled⟩ := a.toDecimal.exists_called_start n
    obtain ⟨hpower, htables⟩ := hcalled.sound (Decimal.PowerTable.sound_start _)
    rw [toInt_toDecimal] at hpower
    refine ⟨_, now, before, hcalled, ?_, ?_, exact_of_toInt hpower⟩
    · intro table htable k v hv
      rw [htables table htable k v hv, toInt_toDecimal]
    · rw [powDatum_integer, pow_natCast]
  · rw [powDatum_integer, pow_zero_eq_one]
  · intro n hn
    rw [powDatum_integer, pow_of_neg hn]
  · intro e
    refine ⟨?_, refused_iff ?_ ?_⟩
    · intro he
      exact (powNumeral_of_fitsWord he).trans (powDatum_integer a _).symm
    · intro he
      exact ⟨_, powNumeral_of_not_fitsWord he, rfl⟩
    · intro he
      exact ⟨_, powNumeral_of_fitsWord (Decidable.of_not_not he)⟩

/-- Minus three, in base sixteen, to five and to minus five, to the largest number of
a machine word and to the one after that. -/
theorem minus_three_to_five_and_past_a_word :
    let a : Numeral := .ofDigits 16 [3] true (by decide) (by decide)
    (∃ power, a.powDatum (.integer 5) = .ok power ∧ power.toInt = -243) ∧
      a.powDatum (.integer (-5)) = .ok zero ∧
      a.powDatum (.numeral (ofInt (2 ^ 63 - 1))) = a.powDatum (.integer (2 ^ 63 - 1)) ∧
      ∃ e, a.powDatum (.numeral (ofInt (2 ^ 63))) = .error e ∧ e.kind = .overflow := by
  intro a
  obtain ⟨hwhole, _, hnegative, hnumeral⟩ := powers_are_exact a
  obtain ⟨power, _, _, _, _, hfive, hexact⟩ := hwhole 5
  have hlast := (hnumeral (ofInt (2 ^ 63 - 1))).1
  have hpast := (hnumeral (ofInt (2 ^ 63))).2
  rw [toInt_ofInt] at hlast hpast
  exact ⟨⟨_, hfive, hexact.number.trans (by decide)⟩, hnegative (-5) (by decide),
    hlast (by decide), hpast.2 (by decide)⟩

end Numeral

end Abacus
