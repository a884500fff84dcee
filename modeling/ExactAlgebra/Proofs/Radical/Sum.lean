import ExactAlgebra.Proofs.Error.Run
import ExactAlgebra.Proofs.Radical.Simplest
import Mathlib.Algebra.BigOperators.Group.List.Basic

/-!
# Sums of several radicals

Several radicals are added from left to right, and every partial sum has to be a radical again. What
such a sum comes to is seen part by part: for each radicand the coefficients are added as rationals,
whatever is done with the other radicands. So the order cannot change the sum; but it can decide
whether there is one, because a radicand may have to be cancelled before the next one comes.

## Main statements

* `eq_of_part_eq` — a radical is known by its parts;
* `part_add`, `part_sumFrom` — the parts of a sum;
* `sumFrom_of_alike` — radicals with one radicand always have a sum;
* `resolves_of_sumFrom` — of any sum at most one radicand is left.

## Main definitions

* `part` — the coefficient that belongs to a radicand;
* `IsAlike` — a radical that is zero or has a given radicand;
* `sumFrom` — the sum from left to right.
-/

namespace ExactAlgebra.Radical

variable {a b c : Radical} {as : List Radical} {m : ℕ}

/-! ## Parts -/

/-- **The part of a radical that belongs to a radicand**: its coefficient, or zero if it has another
radicand. -/
def part (m : ℕ) (a : Radical) : ℚ :=
  if a.radicand = m then a.coefficient else 0

theorem part_self (a : Radical) : part a.radicand a = a.coefficient :=
  if_pos rfl

theorem part_of_ne (other : a.radicand ≠ m) : part m a = 0 :=
  if_neg other

theorem part_of_zero (zero : a.coefficient = 0) (m : ℕ) : part m a = 0 := by
  rw [part, zero, ite_self]

theorem part_ofParts (q : ℚ) {k : ℕ} (free : SquareFree k) :
    part m (ofParts q k free) = if k = m then q else 0 := by
  by_cases zero : q = 0
  · rw [part_of_zero (by rw [coefficient_ofParts, zero]), zero, ite_self]
  · rw [part, coefficient_ofParts, radicand_ofParts zero]

theorem coefficient_ne_zero_of_part (some : part m a ≠ 0) : a.coefficient ≠ 0 ∧ a.radicand = m := by
  unfold part at some
  split at some
  · rename_i same
    exact ⟨some, same⟩
  · exact absurd rfl some

/-- **A radical is known by its parts.** -/
theorem eq_of_part_eq (same : ∀ m, part m a = part m b) : a = b := by
  have coefficients : a.coefficient = b.coefficient ∧ a.radicand = b.radicand := by
    by_cases zero : a.coefficient = 0
    · have other : b.coefficient = 0 := by
        rw [← part_self b, ← same, part_of_zero zero]
      exact ⟨zero.trans other.symm,
        (a.radicand_of_zero zero).trans (b.radicand_of_zero other).symm⟩
    · have there : part a.radicand b = a.coefficient := by rw [← same, part_self]
      obtain ⟨-, radicand⟩ := coefficient_ne_zero_of_part (there ▸ zero)
      exact ⟨by rw [← there, ← radicand, part_self], radicand.symm⟩
  obtain ⟨p, k, _, _⟩ := a
  obtain ⟨q, l, _, _⟩ := b
  obtain ⟨rfl, rfl⟩ : p = q ∧ k = l := coefficients
  rfl

/-! ## One sum -/

theorem isZero_eq_true_iff : a.isZero = true ↔ a.coefficient = 0 :=
  decide_eq_true_iff

/-- **Each part of a sum** is the sum of the parts. -/
theorem part_add (sum : a.add b = .ok c) (m : ℕ) : part m c = part m a + part m b := by
  unfold add at sum
  split at sum
  · rename_i zero
    cases sum
    rw [part_of_zero (isZero_eq_true_iff.mp zero), add_zero]
  · split at sum
    · rename_i zero
      cases sum
      rw [part_of_zero (isZero_eq_true_iff.mp zero), zero_add]
    · split at sum
      · rename_i like
        cases sum
        rw [part_ofParts, part, part, ← like]
        split
        · rfl
        · rw [add_zero]
      · cases sum

/-- **A radical that is zero or has a given radicand.** -/
def IsAlike (m : ℕ) (a : Radical) : Prop :=
  a.coefficient ≠ 0 → a.radicand = m

theorem isAlike_ofRat_zero (m : ℕ) : IsAlike m (ofRat 0) :=
  fun some => absurd rfl some

/-- Two radicals with one radicand have a sum, with that radicand. -/
theorem add_of_alike (ha : IsAlike m a) (hb : IsAlike m b) : ∃ c, a.add b = .ok c ∧ IsAlike m c := by
  unfold add
  by_cases zero : b.coefficient = 0
  · rw [if_pos (isZero_eq_true_iff.mpr zero)]
    exact ⟨a, rfl, ha⟩
  rw [if_neg (mt isZero_eq_true_iff.mp zero)]
  by_cases none : a.coefficient = 0
  · rw [if_pos (isZero_eq_true_iff.mpr none)]
    exact ⟨b, rfl, hb⟩
  rw [if_neg (mt isZero_eq_true_iff.mp none), if_pos ((ha none).trans (hb zero).symm)]
  refine ⟨_, rfl, fun some => ?_⟩
  rw [coefficient_ofParts] at some
  rw [radicand_ofParts some]
  exact ha none

/-- Two radicals that are not zero and have different radicands have no sum. -/
theorem add_of_unlike (ha : a.coefficient ≠ 0) (hb : b.coefficient ≠ 0)
    (unlike : a.radicand ≠ b.radicand) : ∃ e, a.add b = .error e := by
  unfold add
  rw [if_neg (mt isZero_eq_true_iff.mp hb), if_neg (mt isZero_eq_true_iff.mp ha), if_neg unlike]
  exact ⟨_, rfl⟩

/-- Zero is added without any effect. -/
theorem zero_add_eq (a : Radical) : (ofRat 0).add a = .ok a := by
  unfold add
  split
  · rename_i zero
    refine congrArg Except.ok (eq_of_part_eq fun m => ?_)
    rw [part_of_zero (isZero_eq_true_iff.mp zero), part_of_zero rfl]
  · rfl

/-- The operands of a sum can be exchanged. -/
theorem add_exchanged (sum : a.add b = .ok c) : b.add a = .ok c := by
  have sums : ∃ d, b.add a = .ok d := by
    by_cases unlike : a.coefficient ≠ 0 ∧ b.coefficient ≠ 0 ∧ a.radicand ≠ b.radicand
    · obtain ⟨e, refused⟩ := add_of_unlike unlike.1 unlike.2.1 unlike.2.2
      cases sum.symm.trans refused
    · -- one of them is zero, or both have the same radicand
      obtain ⟨m, ha, hb⟩ : ∃ m, IsAlike m a ∧ IsAlike m b := by
        by_cases zero : a.coefficient = 0
        · exact ⟨b.radicand, fun some => absurd zero some, fun _ => rfl⟩
        · exact ⟨a.radicand, fun _ => rfl, fun some =>
            (not_not.mp fun apart => unlike ⟨zero, some, apart⟩).symm⟩
      obtain ⟨d, done, -⟩ := add_of_alike hb ha
      exact ⟨d, done⟩
  obtain ⟨d, done⟩ := sums
  rw [done]
  refine congrArg Except.ok (eq_of_part_eq fun m => ?_)
  rw [part_add done, part_add sum, add_comm]

/-! ## Several sums -/

/-- **The sum of some radicals**, from left to right, on top of a first one. -/
def sumFrom (a : Radical) (as : List Radical) : Except Error Radical :=
  as.foldlM add a

theorem sumFrom_cons (a b : Radical) (as : List Radical) :
    sumFrom a (b :: as) = a.add b >>= fun c => sumFrom c as :=
  List.foldlM_cons

theorem sumFrom_append (a : Radical) (as bs : List Radical) :
    sumFrom a (as ++ bs) = sumFrom a as >>= fun c => sumFrom c bs :=
  List.foldlM_append

theorem sumFrom_pair (a b : Radical) : sumFrom (ofRat 0) [a, b] = a.add b := by
  rw [sumFrom_cons, zero_add_eq, bind_ok, sumFrom_cons]
  exact bind_pure _

/-- **Each part of the sum** is the sum of the parts, in whatever order. -/
theorem part_sumFrom (sum : sumFrom a as = .ok c) (m : ℕ) :
    part m c = part m a + (as.map (part m)).sum := by
  induction as generalizing a with
  | nil =>
    cases sum
    simp
  | cons b rest ih =>
    rw [sumFrom_cons] at sum
    obtain ⟨d, first, sum⟩ := ok_of_bind sum
    rw [ih sum, part_add first, List.map_cons, List.sum_cons, add_assoc]

/-- **Radicals with one radicand have a sum.** -/
theorem sumFrom_of_alike (ha : IsAlike m a) (alike : ∀ b ∈ as, IsAlike m b) :
    ∃ c, sumFrom a as = .ok c := by
  induction as generalizing a with
  | nil => exact ⟨a, rfl⟩
  | cons b rest ih =>
    obtain ⟨here, there⟩ := List.forall_mem_cons.mp alike
    obtain ⟨d, first, hd⟩ := add_of_alike ha here
    rw [sumFrom_cons, first]
    exact ih hd there

/-- **Of a sum at most one radicand is left**: the coefficients of any other one cancel. -/
theorem resolves_of_sumFrom (sum : sumFrom (ofRat 0) as = .ok c) {k : ℕ} (other : k ≠ c.radicand) :
    (as.map (part k)).sum = 0 := by
  have total := part_sumFrom sum k
  rw [part_of_ne (Ne.symm other), part_of_zero rfl, zero_add] at total
  exact total.symm

end ExactAlgebra.Radical
