import ExactAlgebra.Factoring.Factor
import ExactAlgebra.Proofs.Factoring.Product

/-!
# Multiples of coefficient lists

A polynomial and its multiples have the same roots, so they are divided by the same linear factors.
Without content a multiple is the same coefficient list again, or the opposite one. The candidates
for rational roots come from absolute values, so the opposite list is searched in the same way.

## Main statements

* `takeCommon_rest` — what is left without content and common power;
* `primitive_map_mul` — that of a multiple;
* `divideLinear_map_mul`, `hasRoot_map_mul` — division and roots;
* `peelLinear_map_neg` — the linear factors of the opposite list.
-/

namespace ExactAlgebra.Dense

/-! ## Content and common power -/

/-- What is left over has neither content nor common power, whether there were any or not. -/
theorem takeCommon_rest (cs : List ℚ) : (takeCommon cs).rest = primitive cs := by
  by_cases common : Rational.content cs ≠ 1 ∨ commonPower cs ≠ 0
  · rw [takeCommon, if_pos common]
  · rw [takeCommon, if_neg common]
    obtain ⟨content, power⟩ := not_or.mp common
    rw [primitive_eq, not_not.mp content, not_not.mp power, Nat.sub_zero, List.take_length, inv_one]
    simp

section Multiple

variable {k : ℚ} (nonzero : k ≠ 0) (cs : List ℚ)

include nonzero

theorem commonPower_map_mul : commonPower (cs.map (k * ·)) = commonPower cs := by
  unfold commonPower
  rw [← List.map_reverse, List.takeWhile_map, List.length_map]
  simp only [Function.comp_def, mul_eq_zero, nonzero, false_or]

/-- **Without content a multiple is the same list**, up to the sign of the factor. -/
theorem primitive_map_mul : primitive (cs.map (k * ·)) = (primitive cs).map (k / |k| * ·) := by
  rw [primitive_eq, primitive_eq, commonPower_map_mul nonzero, List.length_map,
    Rational.content_map_mul nonzero, ← List.map_take, List.map_map, List.map_map]
  congr 1
  funext c
  show (|k| * Rational.content cs)⁻¹ * (k * c) = k / |k| * ((Rational.content cs)⁻¹ * c)
  rw [mul_inv, div_eq_mul_inv]
  ring

theorem HasLeading.map_mul {cs : List ℚ} (leading : HasLeading cs) : HasLeading (cs.map (k * ·)) := by
  obtain ⟨a, rest, leading, rfl⟩ := leading
  exact hasLeading_cons (mul_ne_zero nonzero leading) _

theorem hasRoot_map_mul (r : ℚ) : hasRoot (cs.map (k * ·)) r = hasRoot cs r := by
  unfold hasRoot
  rw [← eval_polynomialOf, polynomialOf_map_mul, Polynomial.eval_C_mul, eval_polynomialOf]
  simp only [mul_eq_zero, nonzero, false_or]

end Multiple

/-! ## Division -/

section Division

variable (k r : ℚ)

theorem divideFrom_map_mul (carried : ℚ) (cs : List ℚ) :
    divideFrom r (k * carried) (cs.map (k * ·)) =
      ((divideFrom r carried cs).1.map (k * ·), k * (divideFrom r carried cs).2) := by
  induction cs generalizing carried with
  | nil => rfl
  | cons c rest ih =>
    have next : k * c + k * carried * r = k * (c + carried * r) := by ring
    rw [List.map_cons, divideFrom_cons, divideFrom_cons, next, ih, List.map_cons]

/-- **The quotient of a multiple** is the multiple of the quotient. -/
theorem divideLinear_map_mul (cs : List ℚ) :
    divideLinear (cs.map (k * ·)) r =
      ((divideLinear cs r).1.map (k * ·), k * (divideLinear cs r).2) := by
  cases cs with
  | nil => simp [divideLinear]
  | cons c rest => exact divideFrom_map_mul k r c rest

end Division

/-! ## The opposite list -/

theorem commonDenominator_map_neg (cs : List ℚ) :
    commonDenominator (cs.map (-1 * ·)) = commonDenominator cs := by
  unfold commonDenominator
  rw [List.foldl_map]
  simp only [neg_one_mul, Rat.neg_den]

theorem integerCoefficients_map_neg (cs : List ℚ) :
    integerCoefficients (cs.map (-1 * ·)) = (integerCoefficients cs).map (-1 * ·) := by
  unfold integerCoefficients
  rw [commonDenominator_map_neg, List.map_map, List.map_map]
  congr 1
  funext c
  simp

/-- **The candidates for the roots are the same.** -/
theorem candidates_map_neg (cs : List ℚ) : candidates (cs.map (-1 * ·)) = candidates cs := by
  have constant : (((integerCoefficients cs).map (-1 * ·)).getLast?.getD 0).natAbs =
      ((integerCoefficients cs).getLast?.getD 0).natAbs := by
    rw [List.getLast?_map]
    cases (integerCoefficients cs).getLast? <;> simp
  have leading : (((integerCoefficients cs).map (-1 * ·)).head?.getD 0).natAbs =
      ((integerCoefficients cs).head?.getD 0).natAbs := by
    rw [List.head?_map]
    cases (integerCoefficients cs).head? <;> simp
  unfold candidates
  simp only [integerCoefficients_map_neg, List.length_map, constant, leading]

/-- **The linear factors are the same**, and the opposite list is left over. -/
theorem peelLinear_map_neg (n : Nat) (cs : List ℚ) :
    peelLinear n (cs.map (-1 * ·)) =
      ⟨(peelLinear n cs).front, (peelLinear n cs).rest.map (-1 * ·)⟩ := by
  induction n generalizing cs with
  | zero => rfl
  | succ n ih =>
    have root : hasRoot (cs.map (-1 * ·)) = hasRoot cs :=
      funext (hasRoot_map_mul (neg_ne_zero.mpr one_ne_zero) cs)
    unfold peelLinear
    rw [List.length_map, candidates_map_neg, root]
    split
    · rfl
    · split
      · rfl
      · rename_i r search
        rw [divideLinear_map_mul, ih]

end ExactAlgebra.Dense
