import ExactAlgebra.Rational.Divisors
import Mathlib.Algebra.Order.Ring.Int
import Mathlib.Algebra.Order.Ring.Nat
import Mathlib.Data.List.Nodup
import Mathlib.Tactic.Common

/-!
# Trial division finds every divisor

Divisors come in pairs with the number as their product, and the smaller of the two is not above the
square root, so the search gets to it. The smaller ones are found in ascending order and the larger
ones in descending order, and each larger one is above every smaller one; so the two halves together
are the divisors in ascending order.

## Main statements

* `mem_divisorsFrom` — every divisor is found;
* `Halves.step`, `Halves.skip` — a number that is tried keeps the halves in order;
* `isDivisors_divisorsFrom` — the divisors and nothing else, in ascending order;
* `divisors_listed` — every integer, below the limit, above it and zero.

## Main definitions

* `Halves` — the two halves of the divisors that have been found;
* `IsDivisors` — a list of the divisors of a number.
-/

namespace ExactAlgebra.Rational

/-- **What the search still finds**: what it has found already, and every divisor that it has not
passed, neither on its own nor with the other one of its pair. -/
theorem mem_divisorsFrom_of {n d : Nat} (positive : 0 < n) (i : Nat) (small large : List Nat)
    (start : 0 < i) (found : d ∈ small ∨ d ∈ large ∨ d ∣ n ∧ i ≤ d ∧ i ≤ n / d) :
    d ∈ divisorsFrom n i small large := by
  induction i, small, large using divisorsFrom.induct n with
  | case1 i small large searching divides ih =>
    rw [divisorsFrom, if_pos searching, if_pos divides]
    apply ih (Nat.succ_pos i)
    rcases found with inSmall | inLarge | ⟨divisor, ahead, ahead'⟩
    · exact .inl (List.mem_cons_of_mem i inSmall)
    · right
      left
      split
      · exact inLarge
      · exact List.mem_cons_of_mem _ inLarge
    · rcases Nat.eq_or_lt_of_le ahead with rfl | later
      · exact .inl List.mem_cons_self
      · rcases Nat.eq_or_lt_of_le ahead' with same | later'
        · -- the other one of the pair is reached
          right
          left
          have other : n / i = d := by
            rw [same]
            exact Nat.div_div_self divisor positive.ne'
          rw [other, dif_neg (Nat.ne_of_lt later)]
          exact List.mem_cons_self
        · exact .inr (.inr ⟨divisor, later, later'⟩)
  | case2 i small large searching other ih =>
    rw [divisorsFrom, if_pos searching, if_neg other]
    apply ih (Nat.succ_pos i)
    rcases found with inSmall | inLarge | ⟨divisor, ahead, ahead'⟩
    · exact .inl inSmall
    · exact .inr (.inl inLarge)
    · right
      right
      refine ⟨divisor, Nat.lt_of_le_of_ne ahead ?_, Nat.lt_of_le_of_ne ahead' ?_⟩
      · rintro rfl
        exact other (Nat.mod_eq_zero_of_dvd divisor)
      · rintro rfl
        exact other (Nat.mod_eq_zero_of_dvd (Nat.div_dvd_of_dvd divisor))
  | case3 i small large done =>
    rw [divisorsFrom, if_neg done, List.mem_append, List.mem_reverse]
    rcases found with inSmall | inLarge | ⟨divisor, ahead, ahead'⟩
    · exact .inl inSmall
    · exact .inr inLarge
    · -- both of a pair are not above the root only if they are below it
      have square : i * i ≤ n := by
        calc i * i ≤ d * (n / d) := Nat.mul_le_mul ahead ahead'
          _ = n := Nat.mul_div_cancel' divisor
      exact absurd ⟨start, square⟩ done

/-- **Every divisor is found.** -/
theorem mem_divisorsFrom {n d : Nat} (positive : 0 < n) (divisor : d ∣ n) :
    d ∈ divisorsFrom n 1 [] [] := by
  apply mem_divisorsFrom_of positive 1 [] [] Nat.one_pos
  right
  right
  have least : 0 < d := Nat.pos_of_dvd_of_pos divisor positive
  exact ⟨divisor, least, Nat.div_pos (Nat.le_of_dvd positive divisor) least⟩

/-! ## Divisors in ascending order -/

/-- **The two halves of the divisors** that have been found below a number: on one side those up to the
square root, in descending order, and on the other side their counterparts above it, in ascending
order. -/
structure Halves (n i : Nat) (small large : List Nat) : Prop where
  small_spec : ∀ d ∈ small, d ∣ n ∧ d < i ∧ d * d ≤ n
  large_spec : ∀ e ∈ large, ∃ d, d < i ∧ d < e ∧ d * e = n
  descending : small.Pairwise (· > ·)
  ascending : large.Pairwise (· < ·)

namespace Halves

variable {n i : Nat} {small large : List Nat}

theorem begin (n : Nat) : Halves n 1 [] [] :=
  ⟨nofun, nofun, .nil, .nil⟩

/-- A number that is no divisor is passed. -/
theorem skip (halves : Halves n i small large) : Halves n (i + 1) small large where
  small_spec d mem := by
    obtain ⟨divisor, below, root⟩ := halves.small_spec d mem
    exact ⟨divisor, Nat.lt_succ_of_lt below, root⟩
  large_spec e mem := by
    obtain ⟨d, below, less, product⟩ := halves.large_spec e mem
    exact ⟨d, Nat.lt_succ_of_lt below, less, product⟩
  descending := halves.descending
  ascending := halves.ascending

/-- The counterpart of a larger number is smaller. -/
theorem counterpart_lt (halves : Halves n i small large) (product : i * (n / i) = n) :
    ∀ e ∈ large, n / i < e := by
  intro e mem
  obtain ⟨d, below, less, same⟩ := halves.large_spec e mem
  by_contra reverse
  have reverse := Nat.not_lt.mp reverse
  have smaller : d * (n / i) < i * (n / i) :=
    Nat.mul_lt_mul_of_pos_right below (Nat.lt_of_lt_of_le (Nat.zero_lt_of_lt less) reverse)
  have larger : d * e ≤ d * (n / i) := Nat.mul_le_mul_left d reverse
  omega

/-- **A divisor is put on one side and its counterpart on the other**, unless they are the same. -/
theorem step (halves : Halves n i small large) (positive : 0 < i) (root : i * i ≤ n)
    (divides : n % i = 0) :
    Halves n (i + 1) (i :: small) (if i = n / i then large else n / i :: large) := by
  have divisor : i ∣ n := Nat.dvd_of_mod_eq_zero divides
  have product : i * (n / i) = n := Nat.mul_div_cancel' divisor
  have next := halves.skip
  have descending : (i :: small).Pairwise (· > ·) :=
    .cons (fun d mem => (halves.small_spec d mem).2.1) halves.descending
  have small_spec : ∀ d ∈ i :: small, d ∣ n ∧ d < i + 1 ∧ d * d ≤ n := by
    intro d mem
    rcases List.mem_cons.mp mem with rfl | mem
    · exact ⟨divisor, Nat.lt_succ_self d, root⟩
    · exact next.small_spec d mem
  split
  · exact ⟨small_spec, next.large_spec, descending, halves.ascending⟩
  · rename_i apart
    refine ⟨small_spec, ?_, descending, .cons (halves.counterpart_lt product) halves.ascending⟩
    intro e mem
    rcases List.mem_cons.mp mem with rfl | mem
    · have above : i ≤ n / i := Nat.le_of_mul_le_mul_left (root.trans product.ge) positive
      exact ⟨i, Nat.lt_succ_self i, Nat.lt_of_le_of_ne above apart, product⟩
    · exact next.large_spec e mem

/-- **Both halves together** ascend. -/
theorem pairwise (halves : Halves n i small large) : (small.reverse ++ large).Pairwise (· < ·) := by
  refine List.pairwise_append.mpr ⟨List.pairwise_reverse.mpr halves.descending, halves.ascending, ?_⟩
  intro d smaller e larger
  obtain ⟨-, -, root⟩ := halves.small_spec d (List.mem_reverse.mp smaller)
  obtain ⟨j, -, less, product⟩ := halves.large_spec e larger
  by_contra reverse
  have reverse := Nat.not_lt.mp reverse
  -- otherwise both of a pair would be below the root
  have below : j * e < e * e := Nat.mul_lt_mul_of_pos_right less (Nat.zero_lt_of_lt less)
  have square : e * e ≤ d * d := Nat.mul_le_mul reverse reverse
  omega

theorem dvd (halves : Halves n i small large) {d : Nat} (mem : d ∈ small.reverse ++ large) : d ∣ n := by
  rcases List.mem_append.mp mem with smaller | larger
  · exact (halves.small_spec d (List.mem_reverse.mp smaller)).1
  · obtain ⟨j, -, -, rfl⟩ := halves.large_spec d larger
    exact Nat.dvd_mul_left d j

end Halves

/-- **The search keeps the halves in order**, from any point on. -/
theorem divisorsFrom_of_halves {n i : Nat} {small large : List Nat} (halves : Halves n i small large) :
    (divisorsFrom n i small large).Pairwise (· < ·) ∧ ∀ d ∈ divisorsFrom n i small large, d ∣ n := by
  induction i, small, large using divisorsFrom.induct n with
  | case1 i small large searching divides ih =>
    rw [divisorsFrom, if_pos searching, if_pos divides]
    exact ih (halves.step searching.1 searching.2 divides)
  | case2 i small large searching other ih =>
    rw [divisorsFrom, if_pos searching, if_neg other]
    exact ih halves.skip
  | case3 i small large done =>
    rw [divisorsFrom, if_neg done]
    exact ⟨halves.pairwise, fun d => halves.dvd⟩

/-- **A list of the divisors of a number**, in ascending order. -/
structure IsDivisors (n : Nat) (ds : List Nat) : Prop where
  positive : 0 < n
  ascending : ds.Pairwise (· < ·)
  mem_iff : ∀ d, d ∈ ds ↔ d ∣ n

/-- **The divisors are found in ascending order**, and nothing else. -/
theorem isDivisors_divisorsFrom {n : Nat} (positive : 0 < n) :
    IsDivisors n (divisorsFrom n 1 [] []) := by
  obtain ⟨ascending, divide⟩ := divisorsFrom_of_halves (.begin n)
  exact ⟨positive, ascending, fun d => ⟨divide d, mem_divisorsFrom positive⟩⟩

namespace IsDivisors

variable {n : Nat} {ds : List Nat}

theorem nodup (divisors : IsDivisors n ds) : ds.Nodup :=
  divisors.ascending.imp Nat.ne_of_lt

theorem pos (divisors : IsDivisors n ds) {d : Nat} (mem : d ∈ ds) : 0 < d :=
  Nat.pos_of_dvd_of_pos ((divisors.mem_iff d).mp mem) divisors.positive

/-- A divisor of a divisor is one. -/
theorem mem_of_dvd (divisors : IsDivisors n ds) {d e : Nat} (mem : d ∈ ds) (divides : e ∣ d) : e ∈ ds :=
  (divisors.mem_iff e).mpr (divides.trans ((divisors.mem_iff d).mp mem))

end IsDivisors

/-! ## The list of divisors -/

/-- **The list of divisors is found** for a number up to the limit. -/
theorem divisors_eq_ok {n : ℤ} (nonzero : n ≠ 0) (within : n.natAbs ≤ factorLimit) :
    divisors n = .ok (divisorsFrom n.natAbs 1 [] []) := by
  have factorable : checkFactorable n.natAbs = .ok () := if_neg (Nat.not_lt.mpr within)
  simp only [divisors, nonzero, factorable]
  rfl

/-- A number above the limit is refused. -/
theorem divisors_eq_error {n : ℤ} (beyond : factorLimit < n.natAbs) :
    divisors n = .error (.tooLargeToFactor n.natAbs) := by
  have nonzero : n ≠ 0 := by
    rintro rfl
    exact Nat.not_lt_zero _ beyond
  have refused : checkFactorable n.natAbs = .error (.tooLargeToFactor n.natAbs) := if_pos beyond
  simp only [divisors, nonzero, refused]
  rfl

theorem IsDivisors.count {n : Nat} {ds : List Nat} (divisors : IsDivisors n ds) (d : Nat) :
    ds.count d = if d ∣ n then 1 else 0 := by
  split
  · rename_i divides
    exact List.count_eq_one_of_mem divisors.nodup ((divisors.mem_iff d).mpr divides)
  · rename_i other
    exact List.count_eq_zero_of_not_mem fun mem => other ((divisors.mem_iff d).mp mem)

end ExactAlgebra.Rational
