import ExactAlgebra.Factoring.Factor
import Mathlib.Algebra.Polynomial.Degree.Lemmas
import Mathlib.Algebra.Polynomial.FieldDivision
import Mathlib.Algebra.Polynomial.Roots
import Mathlib.Tactic.LinearCombination

/-!
# Coefficient lists as polynomials

A coefficient list stands for a polynomial over the rationals, highest power first. This module says
which polynomial that is, and what the operations on the lists do to it: values, division by a linear
factor, dividing by a number, trailing zeros.

## Main statements

* `eval_polynomialOf` — the scheme of Horner evaluates;
* `natDegree_polynomialOf`, `leadingCoeff_polynomialOf` — the degree and the first coefficient;
* `polynomialOf_divideLinear`, `length_divideLinear` — quotient and remainder.

## Main definitions

* `Dense.polynomialOf` — the polynomial of a coefficient list;
* `Dense.HasLeading` — the first coefficient is there, and is not zero.
-/

namespace ExactAlgebra.Dense

open Polynomial

/-- **The polynomial of a coefficient list**, highest power first. -/
noncomputable def polynomialOf : List ℚ → ℚ[X]
  | [] => 0
  | c :: rest => C c * X ^ rest.length + polynomialOf rest

@[simp]
theorem polynomialOf_nil : polynomialOf [] = 0 := rfl

theorem polynomialOf_cons (c : ℚ) (rest : List ℚ) :
    polynomialOf (c :: rest) = C c * X ^ rest.length + polynomialOf rest := rfl

theorem polynomialOf_append (front rest : List ℚ) :
    polynomialOf (front ++ rest) = polynomialOf front * X ^ rest.length + polynomialOf rest := by
  induction front with
  | nil => simp
  | cons c front ih =>
    rw [List.cons_append, polynomialOf_cons, polynomialOf_cons, ih, List.length_append]
    ring

theorem polynomialOf_replicate_zero (n : Nat) : polynomialOf (List.replicate n 0) = 0 := by
  induction n with
  | zero => rfl
  | succ n ih => rw [List.replicate_succ, polynomialOf_cons, ih, C_0, zero_mul, add_zero]

/-- Multiplying all coefficients multiplies the polynomial. -/
theorem polynomialOf_map_mul (k : ℚ) (cs : List ℚ) :
    polynomialOf (cs.map (k * ·)) = C k * polynomialOf cs := by
  induction cs with
  | nil => simp
  | cons c rest ih =>
    rw [List.map_cons, polynomialOf_cons, polynomialOf_cons, ih, List.length_map, C_mul]
    ring

/-- **The scheme of Horner evaluates the polynomial.** -/
theorem eval_polynomialOf (cs : List ℚ) (x : ℚ) :
    (polynomialOf cs).eval x = Poly.horner cs x := by
  have carried : ∀ v : ℚ, cs.foldl (fun v c => v * x + c) v =
      v * x ^ cs.length + (polynomialOf cs).eval x := by
    induction cs with
    | nil => simp
    | cons c rest ih =>
      intro v
      rw [List.foldl_cons, ih, polynomialOf_cons, List.length_cons]
      simp only [eval_add, eval_mul, eval_C, eval_pow, eval_X]
      ring
  rw [Poly.horner, carried, zero_mul, zero_add]

/-! ## Degree -/

theorem degree_polynomialOf_lt (cs : List ℚ) : (polynomialOf cs).degree < cs.length := by
  induction cs with
  | nil => simp
  | cons c rest ih =>
    rw [polynomialOf_cons]
    have first : (C c * X ^ rest.length : ℚ[X]).degree ≤ rest.length := degree_C_mul_X_pow_le _ _
    refine (degree_add_le _ _).trans_lt (max_lt (first.trans_lt ?_) (ih.trans ?_)) <;>
      exact_mod_cast Nat.lt_succ_self _

/-- **The coefficients are those of the polynomial**: lists of one length have different
polynomials. -/
theorem eq_of_polynomialOf_eq {cs ds : List ℚ} (length : cs.length = ds.length)
    (same : polynomialOf cs = polynomialOf ds) : cs = ds := by
  induction cs generalizing ds with
  | nil => exact (List.length_eq_zero_iff.mp length.symm).symm
  | cons c rest ih =>
    match ds, length with
    | d :: rest', length =>
      have length : rest.length = rest'.length := Nat.succ.inj length
      have first : ∀ (c : ℚ) (cs : List ℚ), (polynomialOf (c :: cs)).coeff cs.length = c := by
        intro c cs
        rw [polynomialOf_cons, coeff_add, coeff_C_mul_X_pow, if_pos rfl,
          coeff_eq_zero_of_degree_lt (degree_polynomialOf_lt cs), add_zero]
      have same' : c = d := by
        rw [← first c rest, same, length, first d rest']
      rw [polynomialOf_cons, polynomialOf_cons, length, same', add_right_inj] at same
      rw [same', ih length same]

/-- **The first coefficient is there, and is not zero.** -/
def HasLeading (cs : List ℚ) : Prop :=
  ∃ a rest, a ≠ 0 ∧ cs = a :: rest

section Leading

variable {a : ℚ} (nonzero : a ≠ 0) (rest : List ℚ)

include nonzero

theorem hasLeading_cons : HasLeading (a :: rest) :=
  ⟨a, rest, nonzero, rfl⟩

theorem degree_polynomialOf_cons : (polynomialOf (a :: rest)).degree = rest.length := by
  have first := degree_C_mul_X_pow rest.length nonzero
  rw [polynomialOf_cons, degree_add_eq_left_of_degree_lt, first]
  rw [first]
  exact degree_polynomialOf_lt rest

/-- **The degree** is one less than the number of coefficients. -/
theorem natDegree_polynomialOf : (polynomialOf (a :: rest)).natDegree = rest.length :=
  natDegree_eq_of_degree_eq_some (degree_polynomialOf_cons nonzero rest)

theorem leadingCoeff_polynomialOf : (polynomialOf (a :: rest)).leadingCoeff = a := by
  have first := degree_C_mul_X_pow rest.length nonzero
  rw [polynomialOf_cons, leadingCoeff_add_of_degree_lt']
  · exact leadingCoeff_C_mul_X_pow a rest.length
  · rw [first]
    exact degree_polynomialOf_lt rest

omit nonzero rest in
theorem HasLeading.polynomialOf_ne_zero {cs : List ℚ} (leading : HasLeading cs) :
    polynomialOf cs ≠ 0 := by
  obtain ⟨a, rest, nonzero, rfl⟩ := leading
  rw [Ne, ← leadingCoeff_eq_zero, leadingCoeff_polynomialOf nonzero]
  exact nonzero

end Leading

theorem HasLeading.length_eq {cs : List ℚ} (leading : HasLeading cs) :
    cs.length = (polynomialOf cs).natDegree + 1 := by
  obtain ⟨a, rest, nonzero, rfl⟩ := leading
  rw [natDegree_polynomialOf nonzero, List.length_cons]

/-- **Lists without zeros in front** that have the same polynomial are the same. -/
theorem eq_of_leading {cs ds : List ℚ} (leading : cs = [] ∨ HasLeading cs)
    (leading' : ds = [] ∨ HasLeading ds) (same : polynomialOf cs = polynomialOf ds) : cs = ds := by
  refine eq_of_polynomialOf_eq ?_ same
  rcases leading with rfl | leading
  · rcases leading' with rfl | leading'
    · rfl
    · exact absurd same.symm leading'.polynomialOf_ne_zero
  · rcases leading' with rfl | leading'
    · exact absurd same leading.polynomialOf_ne_zero
    · rw [leading.length_eq, leading'.length_eq, same]

/-! ## Operations -/

@[simp]
theorem polynomialOf_singleton (c : ℚ) : polynomialOf [c] = C c := by
  simp [polynomialOf]

@[simp]
theorem polynomialOf_linear (r : ℚ) : polynomialOf (linear r) = X - C r := by
  simp [linear, polynomialOf]
  ring

theorem hasLeading_linear (r : ℚ) : HasLeading (linear r) :=
  hasLeading_cons one_ne_zero [-r]

@[simp]
theorem polynomialOf_single (c : ℚ) (n : Nat) : polynomialOf (single c n) = C c * X ^ n := by
  rw [single, polynomialOf_cons, polynomialOf_replicate_zero, List.length_replicate, add_zero]

theorem polynomialOf_quadratic (a b c : ℚ) :
    polynomialOf [a, b, c] = C a * X ^ 2 + C b * X + C c := by
  simp [polynomialOf]
  ring

theorem divideFrom_cons (root carried c : ℚ) (rest : List ℚ) :
    divideFrom root carried (c :: rest) =
      (carried :: (divideFrom root (c + carried * root) rest).1,
        (divideFrom root (c + carried * root) rest).2) := rfl

theorem polynomialOf_divideFrom (root carried : ℚ) (cs : List ℚ) :
    C carried * X ^ cs.length + polynomialOf cs =
      (X - C root) * polynomialOf (divideFrom root carried cs).1 +
        C (divideFrom root carried cs).2 ∧
      (divideFrom root carried cs).1.length = cs.length := by
  induction cs generalizing carried with
  | nil => simp [divideFrom]
  | cons c rest ih =>
    obtain ⟨value, length⟩ := ih (c + carried * root)
    refine ⟨?_, by simp [divideFrom_cons, length]⟩
    rw [divideFrom_cons, polynomialOf_cons, polynomialOf_cons, length, List.length_cons]
    rw [C_add, C_mul] at value
    linear_combination value

/-- **Quotient and remainder** of the division by `x - root`. -/
theorem polynomialOf_divideLinear (cs : List ℚ) (root : ℚ) :
    polynomialOf cs = (X - C root) * polynomialOf (divideLinear cs root).1 +
      C (divideLinear cs root).2 := by
  cases cs with
  | nil => simp [divideLinear]
  | cons c rest => exact (polynomialOf_divideFrom root c rest).1

theorem length_divideLinear (cs : List ℚ) (r : ℚ) :
    (divideLinear cs r).1.length = cs.length - 1 := by
  cases cs with
  | nil => rfl
  | cons c rest => exact (polynomialOf_divideFrom r c rest).2

/-- The remainder is the value. -/
theorem divideLinear_remainder (cs : List ℚ) (root : ℚ) :
    (divideLinear cs root).2 = Poly.horner cs root := by
  rw [← eval_polynomialOf, polynomialOf_divideLinear cs root]
  simp

/-- The quotient has the same first coefficient. -/
theorem divideLinear_cons (a b : ℚ) (rest : List ℚ) (root : ℚ) :
    ∃ quotient, (divideLinear (a :: b :: rest) root).1 = a :: quotient :=
  ⟨_, rfl⟩

/-- **A root divides out.** -/
theorem polynomialOf_divideLinear_of_root {cs : List ℚ} {root : ℚ} (isRoot : hasRoot cs root) :
    polynomialOf cs = (X - C root) * polynomialOf (divideLinear cs root).1 := by
  have zero : Poly.horner cs root = 0 := by simpa [hasRoot] using isRoot
  have division := polynomialOf_divideLinear cs root
  rwa [divideLinear_remainder, zero, C_0, add_zero] at division

end ExactAlgebra.Dense
