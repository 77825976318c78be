-- The laws of work on digits in place. A digit counts for its place, so writing one
-- place changes the number by that place alone. Work whose steps leave no choice, and
-- which has come to an end once, comes to that end from everywhere on the way.
import Mathlib.Logic.Relation
import Abacus.Digits.Basic

open Relation (ReflTransGen)

namespace Abacus

/-! ## Work that comes to an end -/

/-- Every run from `s` stops, and `e` is where it stops: from everywhere on the way
the steps go on to `e`, and none leads out of `e`. -/
structure Ends {α : Type} (step : α → α → Prop) (s e : α) : Prop where
  stops : Acc (fun after before => step before after) s
  last : ∀ t, ¬ step e t
  reaches : ∀ t, ReflTransGen step s t → ReflTransGen step t e

theorem ends_of_run {α : Type} {step : α → α → Prop} {s e : α} (hone : Relator.RightUnique step)
    (hrun : ReflTransGen step s e) (hlast : ∀ t, ¬ step e t) : Ends step s e := by
  refine ⟨?_, hlast, fun t ht => ?_⟩
  · induction hrun using ReflTransGen.head_induction_on with
    | refl => exact ⟨e, fun t ht => absurd ht (hlast t)⟩
    | head hstep _ ih => exact ⟨_, fun t ht => hone hstep ht ▸ ih⟩
  · rcases hrun.total_of_right_unique hone ht with h | h
    · rcases h.cases_head with rfl | ⟨u, hu, _⟩
      · exact .refl
      · exact absurd hu (hlast u)
    · exact h

namespace Digits

/-! ## One digit among the others -/

section

variable {base i d : Nat} {ds : List Nat}

theorem drop_of_getElem? (h : ds[i]? = some d) : ds.drop i = d :: ds.drop (i + 1) := by
  obtain ⟨hi, rfl⟩ := List.getElem?_eq_some_iff.1 h
  exact List.drop_eq_getElem_cons hi

theorem getElem?_of_drop {rest : List Nat} (h : ds.drop i = d :: rest) :
    ds[i]? = some d ∧ ds.drop (i + 1) = rest := by
  have hd : ds[i]? = some d := by simpa [h] using (List.head?_drop (l := ds) (i := i)).symm
  refine ⟨hd, ?_⟩
  rw [drop_of_getElem? hd] at h
  exact (List.cons.inj h).2

theorem take_succ_of_getElem? (h : ds[i]? = some d) : ds.take (i + 1) = ds.take i ++ [d] := by
  simp [List.take_add_one, h]

theorem lt_length_of_getElem? (h : ds[i]? = some d) : i < ds.length :=
  (List.getElem?_eq_some_iff.1 h).1

theorem value_drop (h : ds[i]? = some d) :
    value base (ds.drop i) = d + base * value base (ds.drop (i + 1)) := by
  rw [drop_of_getElem? h, value_cons]

theorem value_take_succ (h : ds[i]? = some d) :
    value base (ds.take (i + 1)) = value base (ds.take i) + weight base i * d := by
  have hlt := lt_length_of_getElem? h
  rw [take_succ_of_getElem? h, value_append, List.length_take, Nat.min_eq_left (by omega)]
  simp

theorem Fits.getElem? (hf : Fits base ds) (h : ds[i]? = some d) : d < base :=
  hf d (List.mem_of_getElem? h)

theorem Fits.set (hf : Fits base ds) {e : Nat} (he : e < base) : Fits base (ds.set i e) := by
  intro x hx
  rcases List.mem_or_eq_of_mem_set hx with h | rfl
  · exact hf x h
  · exact he

/-! ## Writing a digit -/

theorem set_of_getElem? (h : ds[i]? = some d) (e : Nat) :
    ds.set i e = ds.take i ++ e :: ds.drop (i + 1) := by
  rw [List.set_eq_take_append_cons_drop, if_pos (lt_length_of_getElem? h)]

theorem take_succ_set (h : ds[i]? = some d) (e : Nat) :
    (ds.set i e).take (i + 1) = ds.take i ++ [e] := by
  have hlt := lt_length_of_getElem? h
  rw [take_succ_of_getElem? (List.getElem?_set_self hlt), List.take_set_of_le (Nat.le_refl i)]

theorem value_set (base : Nat) (h : ds[i]? = some d) (e : Nat) :
    value base (ds.set i e) + weight base i * d = value base ds + weight base i * e := by
  have hlt := lt_length_of_getElem? h
  have hold := value_append base (ds.take i) (ds.drop i)
  rw [List.take_append_drop, drop_of_getElem? h] at hold
  rw [hold, set_of_getElem? h, value_append, List.length_take, Nat.min_eq_left (by omega)]
  simp only [value_cons, Nat.mul_add]
  omega

end

end Digits

end Abacus
