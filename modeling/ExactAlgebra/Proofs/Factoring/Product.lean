import ExactAlgebra.Proofs.Poly.Coefficients
import ExactAlgebra.Proofs.Rational.Content
import ExactAlgebra.Proofs.Rational.SquareRoot
import Mathlib.Data.List.TakeWhile
import Mathlib.Tactic.FieldSimp

/-!
# Factors multiply back

Each level of factoring splits what the level before has left over. So it is enough to know of each
single split that its factors multiply back, and that each of them begins with a coefficient that is
not zero; a factoring of what is left can then be put in its place.

## Main statements

* `Splits.trans` — a factoring of what is left over;
* `splits_takeCommon`, `splits_splitQuadratic`, `splits_peelLinear` — the single splits;
* `splits_basicFactors`, `splits_completeFactors` — both levels.

## Main definitions

* `Factors.all`, `Factors.Splits` — all factors, and that they multiply back.
-/

namespace ExactAlgebra.Dense

open Polynomial

/-- All factors, the rest last. -/
def Factors.all (f : Factors) : List (List ℚ) :=
  f.front ++ [f.rest]

/-- **The factors multiply back**, and each begins with a coefficient other than zero. -/
structure Factors.Splits (f : Factors) (cs : List ℚ) : Prop where
  product : (f.all.map polynomialOf).prod = polynomialOf cs
  leading : ∀ g ∈ f.all, HasLeading g

namespace Factors.Splits

variable {cs : List ℚ}

theorem refl (leading : HasLeading cs) : Factors.Splits ⟨[], cs⟩ cs :=
  ⟨by simp [all], by simpa [all] using leading⟩

/-- **A factoring of what is left over** goes on from one. -/
theorem trans {f g : Factors} (first : f.Splits cs) (second : g.Splits f.rest) :
    Factors.Splits ⟨f.front ++ g.front, g.rest⟩ cs := by
  refine ⟨?_, ?_⟩
  · have before := first.product
    have after := second.product
    simp only [all, List.map_append, List.prod_append, List.map_cons, List.map_nil,
      List.prod_singleton] at before after ⊢
    rw [mul_assoc, after, before]
  · intro h mem
    rw [all, List.append_assoc, List.mem_append] at mem
    rcases mem with mem | mem
    · exact first.leading h (List.mem_append_left _ mem)
    · exact second.leading h mem

theorem leading_rest {f : Factors} (splits : f.Splits cs) : HasLeading f.rest :=
  splits.leading f.rest (by simp [all])

end Factors.Splits

/-! ## Content and common power -/

theorem content_ne_zero {cs : List ℚ} (leading : HasLeading cs) : Rational.content cs ≠ 0 := by
  obtain ⟨a, rest, nonzero, rfl⟩ := leading
  exact (Rational.content_pos ⟨a, List.mem_cons_self, nonzero⟩).ne'

/-- The coefficients without the zeros at the end, and those zeros. -/
theorem reverse_dropWhile_append (cs : List ℚ) :
    (cs.reverse.dropWhile (· = 0)).reverse ++ List.replicate (commonPower cs) 0 = cs := by
  have zeros : cs.reverse.takeWhile (· = 0) = List.replicate (commonPower cs) 0 := by
    refine List.eq_replicate_iff.mpr ⟨rfl, fun q mem => ?_⟩
    simpa using List.mem_takeWhile_imp mem
  have parts := List.takeWhile_append_dropWhile (p := fun q : ℚ => decide (q = 0)) (l := cs.reverse)
  rw [zeros] at parts
  have back := congrArg List.reverse parts
  rwa [List.reverse_append, List.reverse_reverse, List.reverse_replicate] at back

theorem take_commonPower (cs : List ℚ) :
    cs.take (cs.length - commonPower cs) = (cs.reverse.dropWhile (· = 0)).reverse := by
  have parts := reverse_dropWhile_append cs
  have length := congrArg List.length parts
  rw [List.length_append, List.length_replicate] at length
  conv_lhs => rw [← length, Nat.add_sub_cancel]
  conv_lhs => enter [2]; rw [← parts]
  exact List.take_left

/-- The last coefficients, as many as the common power, are zero. -/
theorem append_replicate_commonPower (cs : List ℚ) :
    cs.take (cs.length - commonPower cs) ++ List.replicate (commonPower cs) 0 = cs := by
  rw [take_commonPower, reverse_dropWhile_append]

theorem primitive_eq (cs : List ℚ) : primitive cs =
    (cs.take (cs.length - commonPower cs)).map ((Rational.content cs)⁻¹ * ·) := by
  unfold primitive
  simp only [div_eq_inv_mul]

theorem polynomialOf_primitive {cs : List ℚ} (leading : HasLeading cs) :
    C (Rational.content cs) * X ^ commonPower cs * polynomialOf (primitive cs) =
      polynomialOf cs := by
  have inverse : (C (Rational.content cs) * C (Rational.content cs)⁻¹ : ℚ[X]) = 1 := by
    rw [← C_mul, mul_inv_cancel₀ (content_ne_zero leading), C_1]
  conv_rhs => rw [← append_replicate_commonPower cs]
  rw [polynomialOf_append, polynomialOf_replicate_zero, List.length_replicate, primitive_eq,
    polynomialOf_map_mul]
  linear_combination (X ^ commonPower cs * polynomialOf (cs.take (cs.length - commonPower cs))) * inverse

theorem hasLeading_primitive {cs : List ℚ} (leading : HasLeading cs) : HasLeading (primitive cs) := by
  have content := content_ne_zero leading
  obtain ⟨a, rest, nonzero, rfl⟩ := leading
  have parts := append_replicate_commonPower (a :: rest)
  cases front : (a :: rest).take ((a :: rest).length - commonPower (a :: rest)) with
  | nil =>
    -- otherwise all coefficients would be zero
    rw [front, List.nil_append] at parts
    have mem : a ∈ List.replicate (commonPower (a :: rest)) 0 := by
      rw [parts]
      exact List.mem_cons_self
    exact absurd (List.eq_of_mem_replicate mem) nonzero
  | cons b tail =>
    rw [front, List.cons_append] at parts
    obtain rfl := (List.cons.inj parts).1
    rw [primitive, front]
    exact hasLeading_cons (div_ne_zero nonzero content) _

/-- **Content and common power come off.** -/
theorem splits_takeCommon {cs : List ℚ} (leading : HasLeading cs) : (takeCommon cs).Splits cs := by
  rw [takeCommon]
  split
  · refine ⟨?_, ?_⟩
    · simp [Factors.all, polynomialOf_primitive leading]
    · intro g mem
      simp only [Factors.all, List.singleton_append, List.mem_cons, List.not_mem_nil, or_false] at mem
      rcases mem with rfl | rfl
      · exact hasLeading_cons (content_ne_zero leading) _
      · exact hasLeading_primitive leading
  · exact .refl leading

/-! ## Quadratics -/

/-- **The quadratic formula**, with a square root of the discriminant in any field over the
rationals. -/
theorem quadratic_factors {K : Type*} [Field K] [CharZero K] {a b c root : K} (nonzero : a ≠ 0)
    (square : root * root = b * b - 4 * a * c) :
    C a * ((X - C ((-b + root) / (2 * a))) * (X - C ((-b - root) / (2 * a)))) =
      C a * X ^ 2 + C b * X + C c := by
  -- sum and product of the roots are the coefficients
  have sum : (-b + root) / (2 * a) + (-b - root) / (2 * a) = -b / a := by
    field_simp
    ring
  have product : (-b + root) / (2 * a) * ((-b - root) / (2 * a)) = c / a := by
    field_simp
    linear_combination -square
  have expanded : ∀ r s : K, C a * ((X - C r) * (X - C s)) =
      C a * X ^ 2 + C (-a * (r + s)) * X + C (a * (r * s)) := by
    intro r s
    simp only [C_mul, C_add, C_neg]
    ring
  rw [expanded, sum, product, mul_div_cancel₀ c nonzero, neg_mul, mul_div_cancel₀ (-b) nonzero,
    neg_neg]

theorem quadraticRoots?_factors {a b c r s : ℚ} (nonzero : a ≠ 0)
    (roots : quadraticRoots? a b c = some (r, s)) :
    C a * ((X - C r) * (X - C s)) = C a * X ^ 2 + C b * X + C c := by
  obtain ⟨root, found, values⟩ := Option.map_eq_some_iff.mp roots
  obtain ⟨rfl, rfl⟩ := Prod.mk.inj values
  exact quadratic_factors nonzero (Rational.sqrt?_eq_some_iff.mp found).2

/-- **A quadratic with rational roots splits.** -/
theorem splits_splitQuadratic {cs : List ℚ} (leading : HasLeading cs) :
    (splitQuadratic cs).Splits cs := by
  unfold splitQuadratic
  split
  · rename_i a b c
    obtain ⟨_, _, nonzero, same⟩ := leading
    obtain ⟨rfl, rfl⟩ := List.cons.inj same
    split
    · rename_i r s roots
      refine ⟨?_, ?_⟩
      · simp only [Factors.all, List.cons_append, List.nil_append, List.map_cons, List.map_nil,
          List.prod_cons, List.prod_nil, mul_one, polynomialOf_singleton, polynomialOf_linear]
        rw [quadraticRoots?_factors nonzero roots, polynomialOf_quadratic]
      · intro g mem
        simp only [Factors.all, List.cons_append, List.nil_append, List.mem_cons, List.not_mem_nil,
          or_false] at mem
        rcases mem with rfl | rfl | rfl
        · exact hasLeading_cons nonzero []
        · exact hasLeading_linear r
        · exact hasLeading_linear s
    · exact .refl (hasLeading_cons nonzero _)
  · exact .refl leading

/-- A quadratic splits into three factors, or it stays whole, as every other polynomial does. -/
theorem splitQuadratic_cases (cs : List ℚ) : splitQuadratic cs = ⟨[], cs⟩ ∨
    ∃ a b c r s, cs = [a, b, c] ∧ quadraticRoots? a b c = some (r, s) ∧
      splitQuadratic cs = ⟨[[a], linear r], linear s⟩ := by
  unfold splitQuadratic
  split
  · rename_i a b c
    split
    · rename_i r s roots
      exact .inr ⟨a, b, c, r, s, rfl, roots, rfl⟩
    · exact .inl rfl
  · exact .inl rfl

/-! ## Linear factors -/

/-- Nothing is divided out of a polynomial whose degree is at most two. -/
theorem peelLinear_of_short (n : Nat) {cs : List ℚ} (short : cs.length ≤ 3) :
    peelLinear n cs = ⟨[], cs⟩ := by
  cases n with
  | zero => rfl
  | succ n => rw [peelLinear, if_pos short]

theorem hasLeading_divideLinear {cs : List ℚ} (leading : HasLeading cs) (long : 2 ≤ cs.length)
    (root : ℚ) : HasLeading (divideLinear cs root).1 := by
  obtain ⟨a, rest, nonzero, rfl⟩ := leading
  match rest, long with
  | b :: rest, _ =>
    obtain ⟨quotient, same⟩ := divideLinear_cons a b rest root
    rw [same]
    exact hasLeading_cons nonzero quotient

/-- **Linear factors come off**, one for each root that is found. -/
theorem splits_peelLinear (n : Nat) {cs : List ℚ} (leading : HasLeading cs) :
    (peelLinear n cs).Splits cs := by
  induction n generalizing cs with
  | zero => exact .refl leading
  | succ n ih =>
    rw [peelLinear]
    split
    · exact .refl leading
    · rename_i long
      split
      · exact .refl leading
      · rename_i r search
        have isRoot : hasRoot cs r = true := by simpa using List.find?_some search
        -- one factor comes off here, the others come off the quotient
        have quotient := hasLeading_divideLinear leading (by omega) r
        have one : Factors.Splits ⟨[linear r], (divideLinear cs r).1⟩ cs := by
          refine ⟨?_, ?_⟩
          · simp [Factors.all, polynomialOf_divideLinear_of_root isRoot]
          · intro g mem
            simp only [Factors.all, List.singleton_append, List.mem_cons, List.not_mem_nil,
              or_false] at mem
            rcases mem with rfl | rfl
            · exact hasLeading_linear r
            · exact quotient
        exact one.trans (ih quotient)

/-! ## Both levels -/

/-- **The basic factors multiply back.** -/
theorem splits_basicFactors {cs : List ℚ} (leading : HasLeading cs) :
    (basicFactors cs).Splits cs := by
  have common := splits_takeCommon leading
  exact common.trans (splits_splitQuadratic common.leading_rest)

/-- **The complete factors multiply back.** -/
theorem splits_completeFactors {cs : List ℚ} (leading : HasLeading cs) :
    (completeFactors cs).Splits cs := by
  have basic := splits_basicFactors leading
  exact basic.trans (splits_peelLinear peelLimit basic.leading_rest)

end ExactAlgebra.Dense
