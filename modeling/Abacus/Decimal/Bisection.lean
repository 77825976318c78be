-- Search by halving: the largest number whose image stays at or below a
-- target. The interval shrinks at every probe, so the search ends for every
-- function, and for one that never falls no number above the answer stays at
-- or below the target.
import Abacus.Decimal.Ring

namespace Abacus.Decimal

/-- The number halfway between two others, toward zero. -/
def middle (low high : Decimal) : Decimal := (low.add high).half

theorem not_lt_of_cmp {a b : Decimal} (h : a.cmp b ≠ .gt) : a.toInt ≤ b.toInt := by
  rw [cmp_eq, ne_eq, Int.compare_eq_gt] at h
  omega

theorem lt_of_cmp {a b : Decimal} (h : a.cmp b = .gt) : b.toInt < a.toInt := by
  rwa [cmp_eq, Int.compare_eq_gt] at h

/-- The middle stands between the two numbers. -/
theorem middle_bounds {low high : Decimal} (h : low.toInt ≤ high.toInt) :
    low.toInt ≤ (middle low high).toInt ∧ (middle low high).toInt ≤ high.toInt := by
  rw [middle, toInt_half, toInt_add]
  by_cases h0 : 0 ≤ low.toInt + high.toInt
  · rw [Int.tdiv_eq_ediv_of_nonneg h0]
    omega
  · have h1 : low.toInt + high.toInt = -(-(low.toInt + high.toInt)) := by omega
    rw [h1, Int.neg_tdiv, Int.tdiv_eq_ediv_of_nonneg (by omega)]
    omega

/-- Probes between `low` and `high`, and keeps in `best` the last number that
was not too large. `order` compares the image of a number with the target. -/
def search {m : Type → Type} [Monad m] (order : Decimal → m Ordering)
    (low high best : Decimal) : m Decimal :=
  if _h : low.cmp high = .gt then pure best
  else do
    let mid := middle low high
    match ← order mid with
    | .eq => pure mid
    | .lt => search order (mid.add one) high mid
    | .gt => search order low (mid.sub one) best
termination_by (high.toInt + 1 - low.toInt).toNat
decreasing_by
  · have := middle_bounds (not_lt_of_cmp _h)
    have := not_lt_of_cmp _h
    simp only [toInt_add, toInt_one]
    omega
  · have := middle_bounds (not_lt_of_cmp _h)
    have := not_lt_of_cmp _h
    simp only [toInt_sub, toInt_one]
    omega

/-- The smaller of two numbers; the first one when they are equal. -/
def atMost (a b : Decimal) : Decimal := if a.cmp b = .gt then b else a

/-- The largest number from one to `high` and to the target whose image stays
at or below the target, and zero when the image of one is above it already. -/
def bisect {m : Type → Type} [Monad m] (f : Decimal → m Decimal)
    (target high : Decimal) : m Decimal := do
  if (← f one).cmp target = .gt then pure zero
  else search (fun x => do return (← f x).cmp target) one (high.atMost target) one

/-! ## The probes, one at a time -/

theorem search_of_gt {m : Type → Type} [Monad m] {order : Decimal → m Ordering}
    {low high best : Decimal} (h : low.cmp high = .gt) :
    search order low high best = pure best := by
  rw [search, dif_pos h]

theorem search_of_le {m : Type → Type} [Monad m] {order : Decimal → m Ordering}
    {low high best : Decimal} (h : low.cmp high ≠ .gt) :
    search order low high best = (do
      match ← order (middle low high) with
      | .eq => pure (middle low high)
      | .lt => search order ((middle low high).add one) high (middle low high)
      | .gt => search order low ((middle low high).sub one) best) := by
  rw [search, dif_neg h]

theorem toInt_atMost (a b : Decimal) : (a.atMost b).toInt = min a.toInt b.toInt := by
  rw [atMost]
  split
  · rename_i h
    have := lt_of_cmp h
    omega
  · rename_i h
    have := not_lt_of_cmp h
    omega

/-! ## How a search goes -/

/-- From these ends and the best number so far, the search settles on its last
number: one rule for each way that a probe can go. -/
inductive Settles (order : Decimal → Ordering) : Decimal → Decimal → Decimal → Decimal → Prop
  | crossed {low high best : Decimal} : low.cmp high = .gt → Settles order low high best best
  | hit {low high best : Decimal} : low.cmp high ≠ .gt → order (middle low high) = .eq →
      Settles order low high best (middle low high)
  | upward {low high best r : Decimal} : low.cmp high ≠ .gt → order (middle low high) = .lt →
      Settles order ((middle low high).add one) high (middle low high) r →
      Settles order low high best r
  | downward {low high best r : Decimal} : low.cmp high ≠ .gt → order (middle low high) = .gt →
      Settles order low ((middle low high).sub one) best r → Settles order low high best r

/-- Every probe leaves a shorter interval, so the search ends for every order. -/
theorem exists_settles (order : Decimal → Ordering) (low high best : Decimal) :
    ∃ r, Settles order low high best r := by
  obtain ⟨n, hn⟩ : ∃ n, (high.toInt + 1 - low.toInt).toNat = n := ⟨_, rfl⟩
  induction n using Nat.strongRecOn generalizing low high best with
  | _ n ih =>
    by_cases h : low.cmp high = .gt
    · exact ⟨best, .crossed h⟩
    · have h1 := middle_bounds (not_lt_of_cmp h)
      have h2 := not_lt_of_cmp h
      cases ho : order (middle low high) with
      | lt =>
        obtain ⟨r, hr⟩ := ih _ (by simp; omega) ((middle low high).add one) high
          (middle low high) rfl
        exact ⟨r, .upward h ho hr⟩
      | eq => exact ⟨_, .hit h ho⟩
      | gt =>
        obtain ⟨r, hr⟩ := ih _ (by simp; omega) low ((middle low high).sub one) best rfl
        exact ⟨r, .downward h ho hr⟩

/-- An order that raises nothing settles in the same way wherever it runs. -/
theorem Settles.search_eq {m : Type → Type} [Monad m] [LawfulMonad m]
    {order : Decimal → Ordering} {low high best r : Decimal} (h : Settles order low high best r) :
    search (fun x => (pure (order x) : m Ordering)) low high best = pure r := by
  induction h with
  | crossed h => exact search_of_gt h
  | hit h ho => rw [search_of_le h, pure_bind, ho]
  | upward h ho _ ih =>
    rw [search_of_le h, pure_bind, ho]
    exact ih
  | downward h ho _ ih =>
    rw [search_of_le h, pure_bind, ho]
    exact ih

/-- The search for an order that raises nothing. -/
def settle (order : Decimal → Ordering) (low high best : Decimal) : Decimal :=
  Id.run (search (fun x => pure (order x)) low high best)

theorem Settles.settle_eq {order : Decimal → Ordering} {low high best r : Decimal}
    (h : Settles order low high best r) : settle order low high best = r :=
  congrArg Id.run (h.search_eq (m := Id))

theorem settles (order : Decimal → Ordering) (low high best : Decimal) :
    Settles order low high best (settle order low high best) := by
  obtain ⟨r, hr⟩ := exists_settles order low high best
  rwa [hr.settle_eq]

/-! ## What the search finds -/

/-- The comparison of an image with the target, when the image is an integer. -/
def orderOf (g : Int → Int) (target : Int) (x : Decimal) : Ordering :=
  compare (g x.toInt) target

section

variable {g : Int → Int} {target : Int} {low high best r : Decimal}

/-- The answer is the best number so far or stands between the ends, and its
image stays at or below the target. -/
theorem Settles.le (h : Settles (orderOf g target) low high best r)
    (hbest : g best.toInt ≤ target) :
    g r.toInt ≤ target ∧ (r = best ∨ low.toInt ≤ r.toInt ∧ r.toInt ≤ high.toInt) := by
  induction h with
  | crossed _ => exact ⟨hbest, .inl rfl⟩
  | hit h ho => exact ⟨Int.le_of_eq (Int.compare_eq_eq.1 ho), .inr (middle_bounds (not_lt_of_cmp h))⟩
  | upward h ho _ ih =>
    have hmiddle := middle_bounds (not_lt_of_cmp h)
    obtain ⟨hg, hr⟩ := ih (Int.le_of_lt (Int.compare_eq_lt.1 ho))
    refine ⟨hg, .inr ?_⟩
    rcases hr with rfl | ⟨h1, h2⟩
    · exact hmiddle
    · rw [toInt_add, toInt_one] at h1
      exact ⟨by omega, h2⟩
  | downward h _ _ ih =>
    have hmiddle := middle_bounds (not_lt_of_cmp h)
    obtain ⟨hg, hr⟩ := ih hbest
    refine ⟨hg, hr.imp id fun ⟨h1, h2⟩ => ⟨h1, ?_⟩⟩
    rw [toInt_sub, toInt_one] at h2
    omega

/-- Where the images never fall, the answer hits the target, or every number
above it up to `high` is too large. -/
theorem Settles.greatest (h : Settles (orderOf g target) low high best r)
    (hmono : ∀ x y, low.toInt ≤ x → x ≤ y → g x ≤ g y) (hbest : low.toInt - 1 ≤ best.toInt) :
    g r.toInt = target ∨ ∀ x, r.toInt < x → x ≤ high.toInt → target < g x := by
  induction h with
  | crossed h =>
    have := lt_of_cmp h
    exact .inr fun x _ _ => by omega
  | hit _ ho => exact .inl (Int.compare_eq_eq.1 ho)
  | upward h _ _ ih =>
    have hmiddle := middle_bounds (not_lt_of_cmp h)
    refine ih (fun x y hx => hmono x y ?_) ?_
    · rw [toInt_add, toInt_one] at hx
      omega
    · rw [toInt_add, toInt_one]
      omega
  | @downward low high _ _ h ho _ ih =>
    have hmiddle := middle_bounds (not_lt_of_cmp h)
    refine (ih hmono hbest).imp id fun hr x hx hxh => ?_
    rw [toInt_sub, toInt_one] at hr
    by_cases hm : x ≤ (middle low high).toInt - 1
    · exact hr x hx hm
    · exact Int.lt_of_lt_of_le (Int.compare_eq_gt.1 ho) (hmono _ _ hmiddle.1 (by omega))

theorem le_of_rising (hrise : ∀ x y, 1 ≤ x → x < y → g x < g y) {x y : Int} (hx : 1 ≤ x)
    (hxy : x ≤ y) : g x ≤ g y := by
  rcases Int.lt_or_eq_of_le hxy with hlt | rfl
  · exact Int.le_of_lt (hrise x y hx hlt)
  · exact Int.le_refl _

/-- Where the images rise, the search settles on the number where they pass the
target, if that number is not above the upper end. -/
theorem Settles.eq_of_rising (h : Settles (orderOf g target) one high one r)
    (hrise : ∀ x y, 1 ≤ x → x < y → g x < g y) {answer : Int} (hpos : 1 ≤ answer)
    (hle : g answer ≤ target) (hgt : target < g (answer + 1)) (hhigh : answer ≤ high.toInt) :
    r.toInt = answer := by
  have hone : g one.toInt ≤ target := by
    rw [toInt_one]
    exact Int.le_trans (le_of_rising hrise (Int.le_refl 1) hpos) hle
  have hmono : ∀ x y, one.toInt ≤ x → x ≤ y → g x ≤ g y := by
    intro x y hx
    rw [toInt_one] at hx
    exact le_of_rising hrise hx
  obtain ⟨himage, hwhere⟩ := h.le hone
  have hr : 1 ≤ r.toInt := by
    rw [toInt_one] at hwhere
    rcases hwhere with rfl | ⟨hlow, _⟩
    · exact Int.le_of_eq toInt_one.symm
    · exact hlow
  have hlargest := h.greatest hmono (by omega)
  rcases Int.lt_trichotomy r.toInt answer with hbelow | heq | habove
  · have hless := hrise r.toInt answer hr hbelow
    rcases hlargest with hhit | hall
    · omega
    · have hlate := hall answer hbelow hhigh
      omega
  · exact heq
  · have hlate := le_of_rising hrise (x := answer + 1) (y := r.toInt) (by omega) (by omega)
    omega

end

/-! ## What bisecting finds -/

/-- Bisecting a function that raises nothing. -/
theorem bisect_pure {m : Type → Type} [Monad m] [LawfulMonad m] (f : Decimal → Decimal)
    (target high : Decimal) :
    bisect (fun x => (pure (f x) : m Decimal)) target high =
      pure (if (f one).cmp target = .gt then zero
        else settle (fun x => (f x).cmp target) one (high.atMost target) one) := by
  simp only [bisect, pure_bind, (settles _ _ _ _).search_eq]
  split <;> rfl

theorem cmp_orderOf {f : Decimal → Decimal} {g : Int → Int} (target : Decimal)
    (hf : ∀ x, (f x).toInt = g x.toInt) :
    (fun x => (f x).cmp target) = orderOf g target.toInt :=
  funext fun x => by rw [cmp_eq, hf, orderOf]

/-- For a rising function and a bound that is not below the answer, the answer
is the largest number whose image stays at or below the target. -/
theorem bisect_eq_of_rising {f : Decimal → Decimal} {g : Int → Int} {target high : Decimal}
    {answer : Int} (hf : ∀ x, (f x).toInt = g x.toInt)
    (hrise : ∀ x y, 1 ≤ x → x < y → g x < g y) (h0 : 0 ≤ answer)
    (hle : 0 < answer → g answer ≤ target.toInt) (hgt : target.toInt < g (answer + 1))
    (hhigh : answer ≤ high.toInt) (hself : answer ≤ target.toInt) :
    (Id.run (bisect (fun x => pure (f x)) target high)).toInt = answer := by
  have hone : (f one).cmp target = .gt ↔ target.toInt < g 1 := by
    rw [cmp_eq, Int.compare_eq_gt, hf, toInt_one]
  rw [bisect_pure, cmp_orderOf target hf]
  by_cases hpos : answer = 0
  · subst hpos
    rw [if_pos (hone.2 hgt)]
    exact toInt_zero
  · have hanswer : 1 ≤ answer := by omega
    have hfirst := le_of_rising hrise (Int.le_refl 1) hanswer
    have himage := hle (by omega)
    rw [if_neg fun h => by have := hone.1 h; omega]
    refine (settles _ _ _ _).eq_of_rising hrise hanswer himage hgt ?_
    rw [toInt_atMost]
    omega

end Abacus.Decimal
