import ExactAlgebra.Proofs.Equation.Roots
import ExactAlgebra.Proofs.Factoring.RationalRoots

/-!
# The rational ones among the roots

Every factor that is split off is a power of the variable, a constant or linear, and its roots are
written down as often as they occur. So are the rational roots of the last factor, if its degree is
at most two. If it is larger, the last factor has only markers for its roots, and whether a rational
one is among those depends on whether it could be searched.

## Main statements

* `listsRational_factorRoots`, `count_factorRoots` — the roots of one factor;
* `rootMultiplicity_allRoots` — how often a rational number is a root of a polynomial;
* `completeFactors_rest` — how the last factor is left;
* `Poly.allRoots_rational` — the rational roots of a polynomial.

## Main definitions

* `Root.ListsRational` — the rational roots are written down.
-/

namespace ExactAlgebra

open Polynomial

namespace Root

/-- **The rational roots are written down**, each as often as its multiplicity says. -/
structure ListsRational (roots : List Root) (P : ℚ[X]) : Prop where
  ne_zero : P ≠ 0
  count_eq : ∀ r : ℚ, roots.count (.rational r) = P.rootMultiplicity r

namespace ListsRational

variable {roots : List Root} {P : ℚ[X]}

/-- **Lists are joined, polynomials multiplied.** -/
theorem append {others : List Root} {Q : ℚ[X]} (left : ListsRational roots P)
    (right : ListsRational others Q) : ListsRational (roots ++ others) (P * Q) where
  ne_zero := mul_ne_zero left.ne_zero right.ne_zero
  count_eq r := by
    rw [List.count_append, left.count_eq, right.count_eq,
      rootMultiplicity_mul (mul_ne_zero left.ne_zero right.ne_zero)]

/-- **A number times linear factors** has the roots of those. -/
theorem of_product {a : ℚ} (nonzero : a ≠ 0) {rs : List ℚ}
    (product : P = C a * (rs.map fun r => X - C r).prod) : ListsRational (rs.map .rational) P where
  ne_zero := by
    rw [product]
    refine mul_ne_zero (C_ne_zero.mpr nonzero) (List.prod_ne_zero ?_)
    intro zero
    obtain ⟨r, -, none⟩ := List.mem_map.mp zero
    exact X_sub_C_ne_zero r none
  count_eq r := by
    have roots : P.roots = (rs : Multiset ℚ) := by
      rw [product, roots_C_mul _ nonzero, ← Multiset.prod_coe, ← Multiset.map_coe,
        roots_multiset_prod_X_sub_C]
    have injective : Function.Injective Root.rational := fun _ _ => Root.rational.inj
    rw [List.count_map_of_injective rs Root.rational injective, ← count_roots, roots, Multiset.coe_count]

/-- A polynomial without rational roots, none of which is written down. -/
theorem of_irrational (nonzero : P ≠ 0) (irrational : ∀ r : ℚ, ¬ P.IsRoot r)
    (none : ∀ r, .rational r ∉ roots) : ListsRational roots P where
  ne_zero := nonzero
  count_eq r := by
    rw [List.count_eq_zero_of_not_mem (none r), rootMultiplicity_eq_zero (irrational r)]

end ListsRational

end Root

namespace Dense

open Root

/-! ## The roots of one factor -/

/-- A rational root makes the discriminant a square. -/
theorem not_isRoot_quadratic {a b c : ℚ} (irrational : ¬ IsSquare (discriminant a b c)) (r : ℚ) :
    ¬ (polynomialOf [a, b, c]).IsRoot r := by
  intro root
  rw [polynomialOf_quadratic, IsRoot.def] at root
  simp only [eval_add, eval_mul, eval_pow, eval_C, eval_X] at root
  refine irrational ⟨2 * a * r + b, ?_⟩
  unfold discriminant
  linear_combination -4 * a * root

/-- A discriminant that is no square gives radicals. -/
theorem exists_surd {a b c : ℚ} {r s : Root} (irrational : quadraticRoots? a b c = none)
    (roots : realRoots a b c = .ok (some (r, s))) :
    ∃ base offset, r = .surd base offset ∧ s = .surd base offset.neg := by
  rw [realRoots, irrational] at roots
  split at roots
  · cases roots
  · obtain ⟨root, -, same⟩ := ok_of_map roots
    obtain ⟨rfl, rfl⟩ := Prod.mk.inj (Option.some.inj same)
    exact ⟨_, _, rfl, rfl⟩

/-- **The roots of a quadratic that has several terms**: two rational ones, or none that is
rational. -/
theorem listsRational_quadratic {a b c : ℚ} (nonzero : a ≠ 0)
    (several : hasSeveralTerms [a, b, c] = true) :
    ListsRational (factorRoots [a, b, c]) (polynomialOf [a, b, c]) := by
  unfold factorRoots
  rw [if_pos several]
  cases found : quadraticRoots? a b c with
  | some roots =>
    obtain ⟨r, s⟩ := roots
    have square : IsSquare (discriminant a b c) := by
      by_contra irrational
      rw [quadraticRoots?_eq_none_iff.mpr irrational] at found
      cases found
    have real : realRoots a b c = .ok (some (.rational r, .rational s)) := by
      rw [realRoots, if_neg (not_lt.mpr square.nonneg), found]
    have product : polynomialOf [a, b, c] = C a * ([r, s].map fun r => X - C r).prod := by
      rw [polynomialOf_quadratic, ← quadraticRoots?_factors nonzero found]
      simp
    simp only [real]
    exact .of_product nonzero product
  | none =>
    have irrational := quadraticRoots?_eq_none_iff.mp found
    apply ListsRational.of_irrational (hasLeading_cons nonzero _).polynomialOf_ne_zero
      (not_isRoot_quadratic irrational)
    intro r
    dsimp only
    split
    · rename_i roots
      obtain ⟨base, offset, rfl, rfl⟩ := exists_surd found roots
      simp
    · simp

/-- **The rational roots of one factor** are written down, if the degree is at most two or it is a
single term. -/
theorem listsRational_factorRoots {cs : List ℚ} (leading : HasLeading cs)
    (simple : cs.length ≤ 3 ∨ hasSeveralTerms cs = false) :
    ListsRational (factorRoots cs) (polynomialOf cs) := by
  obtain ⟨a, rest, nonzero, rfl⟩ := leading
  by_cases several : hasSeveralTerms (a :: rest) = true
  · have short : (a :: rest).length ≤ 3 := simple.resolve_right (by simp [several])
    match rest, short with
    | [], _ =>
      have product : polynomialOf [a] = C a * (([] : List ℚ).map fun r => X - C r).prod := by simp
      rw [factorRoots_singleton]
      exact .of_product nonzero product
    | [b], _ =>
      have roots : factorRoots [a, b] = [-b / a].map .rational := by
        unfold factorRoots
        rw [if_pos several]
        rfl
      rw [roots]
      apply ListsRational.of_product nonzero
      have root : a * (-b / a) = -b := by field_simp
      rw [List.map_singleton, List.prod_singleton, mul_sub, ← C_mul, root]
      simp [polynomialOf]
    | [b, c], _ => exact listsRational_quadratic nonzero several
  · rw [eq_single_of_not_several nonzero (by simpa using several), factorRoots_single,
      ← List.map_replicate]
    apply ListsRational.of_product nonzero
    simp

/-- Above degree two a factor that has several terms has markers for its roots. -/
theorem count_factorRoots {cs : List ℚ} (long : 3 < cs.length) (several : hasSeveralTerms cs = true)
    (r : ℚ) : (factorRoots cs).count (.rational r) = 0 := by
  unfold factorRoots
  rw [if_pos several]
  match cs, long with
  | a :: b :: c :: d :: rest, _ => simp [List.count_replicate]

/-! ## The roots of all factors -/

/-- The rational roots of several factors are those of the product. -/
theorem listsRational_flatMap {factors : List (List ℚ)} (leading : ∀ g ∈ factors, HasLeading g)
    (simple : ∀ g ∈ factors, g.length ≤ 3 ∨ hasSeveralTerms g = false) :
    ListsRational (factors.flatMap factorRoots) (factors.map polynomialOf).prod := by
  induction factors with
  | nil =>
    have product : (1 : ℚ[X]) = C 1 * (([] : List ℚ).map fun r => X - C r).prod := by simp
    exact .of_product one_ne_zero product
  | cons g rest ih =>
    obtain ⟨here, there⟩ := List.forall_mem_cons.mp leading
    obtain ⟨here', there'⟩ := List.forall_mem_cons.mp simple
    rw [List.flatMap_cons, List.map_cons, List.prod_cons]
    exact (listsRational_factorRoots here here').append (ih there there')

/-- Linear factors are what is divided out. -/
theorem exists_linear_of_mem_peelLinear (n : Nat) {cs g : List ℚ} (mem : g ∈ (peelLinear n cs).front) :
    ∃ r, g = linear r := by
  induction n generalizing cs with
  | zero => cases mem
  | succ n ih =>
    rw [peelLinear] at mem
    split at mem
    · cases mem
    · split at mem
      · cases mem
      · rename_i r _
        rcases List.mem_cons.mp mem with rfl | mem
        · exact ⟨r, rfl⟩
        · exact ih mem

/-- **What is split off** is a power of the variable, a constant or linear. -/
theorem simple_of_mem_completeFactors {cs g : List ℚ} (mem : g ∈ (completeFactors cs).front) :
    g.length ≤ 2 ∨ hasSeveralTerms g = false := by
  unfold completeFactors basicFactors at mem
  rw [List.mem_append, List.mem_append] at mem
  rcases mem with (mem | mem) | mem
  · rw [takeCommon] at mem
    split at mem
    · right
      rw [List.mem_singleton.mp mem]
      exact hasSeveralTerms_single _ _
    · cases mem
  · left
    rcases splitQuadratic_cases (takeCommon cs).rest with whole | ⟨a, b, c, r, s, -, -, split⟩
    · rw [whole] at mem
      cases mem
    · rw [split] at mem
      simp only [List.mem_cons, List.not_mem_nil, or_false] at mem
      rcases mem with rfl | rfl <;> simp [linear]
  · left
    obtain ⟨r, rfl⟩ := exists_linear_of_mem_peelLinear _ mem
    simp [linear]

/-- The last factor is left over by all steps, one after the other. -/
theorem completeFactors_rest_eq (cs : List ℚ) : (completeFactors cs).rest =
    (peelLinear peelLimit (splitQuadratic (primitive cs)).rest).rest := by
  rw [← takeCommon_rest]
  rfl

/-- The last factor is what remains without content, common power and linear factors, unless it is
linear. -/
theorem completeFactors_rest (cs : List ℚ) : (completeFactors cs).rest.length ≤ 3 ∨
    (completeFactors cs).rest = (peelLinear peelLimit (primitive cs)).rest := by
  rw [completeFactors_rest_eq]
  rcases splitQuadratic_cases (primitive cs) with whole | ⟨a, b, c, r, s, -, -, split⟩
  · right
    rw [whole]
  · left
    have short : (linear s).length ≤ 3 := by simp [linear]
    rw [split, peelLinear_of_short peelLimit short]
    exact short

/-- **The last factor is a quotient** of the polynomial without content, if its degree is above two. -/
theorem isQuotient_rest {cs : List ℚ} (leading : HasLeading cs)
    (long : 3 < (completeFactors cs).rest.length) :
    IsQuotient ((primitive cs).head?.getD 0).num ((primitive cs).getLast?.getD 0).num
      (completeFactors cs).rest := by
  obtain ⟨quotient, nonzero, -⟩ := isQuotient_primitive leading
  rw [(completeFactors_rest cs).resolve_left (Nat.not_le.mpr long)]
  exact quotient.peelLinear peelLimit nonzero

theorem hasSeveralTerms_rest {cs : List ℚ} (leading : HasLeading cs)
    (long : 3 < (completeFactors cs).rest.length) :
    hasSeveralTerms (completeFactors cs).rest = true := by
  obtain ⟨-, nonzero, nonzero'⟩ := isQuotient_primitive leading
  obtain ⟨c, last, kept⟩ := (isQuotient_rest leading long).exists_getLast nonzero nonzero'
  obtain ⟨a, rest, first, same⟩ := (splits_completeFactors leading).leading_rest
  by_contra one
  rw [same] at one last long
  rw [eq_single_of_not_several first (by simpa using one)] at last
  -- a single term ends with zeros
  have zeros : rest.length ≠ 0 := by
    rw [List.length_cons] at long
    omega
  rw [single, List.getLast?_cons, List.getLast?_replicate, if_neg zeros] at last
  exact kept (Option.some.inj last).symm

/-- **How often a rational number is a root**: as often as it is written down, and as often as it is a
root of the last factor, if the degree of that is above two. -/
theorem rootMultiplicity_allRoots {cs : List ℚ} (leading : HasLeading cs) (r : ℚ) :
    (polynomialOf cs).rootMultiplicity r = (allRoots cs).count (.rational r) +
      if (completeFactors cs).rest.length ≤ 3 then 0
      else (polynomialOf (completeFactors cs).rest).rootMultiplicity r := by
  have splits := splits_completeFactors leading
  have front : ListsRational ((completeFactors cs).front.flatMap factorRoots)
      ((completeFactors cs).front.map polynomialOf).prod :=
    listsRational_flatMap (fun g mem => splits.leading g (List.mem_append_left _ mem))
      fun g mem => (simple_of_mem_completeFactors mem).imp_left fun short => short.trans (by decide)
  have product := splits.product
  rw [Factors.all, List.map_append, List.prod_append, List.map_singleton, List.prod_singleton] at product
  have nonzero := mul_ne_zero front.ne_zero splits.leading_rest.polynomialOf_ne_zero
  rw [← product, rootMultiplicity_mul nonzero, ← front.count_eq, allRoots, List.flatMap_append,
    List.flatMap_singleton, List.count_append, Nat.add_assoc, Nat.add_left_cancel_iff]
  split
  · rename_i short
    rw [Nat.add_zero, (listsRational_factorRoots splits.leading_rest (.inl short)).count_eq]
  · rename_i long
    have long := Nat.not_le.mp long
    rw [count_factorRoots long (hasSeveralTerms_rest leading long), Nat.zero_add]

/-- **Nothing is missed** just if the degree of the last factor is at most two, or it has no rational
root. -/
theorem count_allRoots_iff {cs : List ℚ} (leading : HasLeading cs) :
    (∀ r : ℚ, (allRoots cs).count (.rational r) = (polynomialOf cs).rootMultiplicity r) ↔
      (completeFactors cs).rest.length ≤ 3 ∨
        ∀ r, ¬ (polynomialOf (completeFactors cs).rest).IsRoot r := by
  have nonzero := (splits_completeFactors leading).leading_rest.polynomialOf_ne_zero
  by_cases short : (completeFactors cs).rest.length ≤ 3
  · simp [short, rootMultiplicity_allRoots leading]
  · simp [short, rootMultiplicity_allRoots leading, rootMultiplicity_eq_zero_iff, nonzero]

theorem length_primitive_le (cs : List ℚ) : (primitive cs).length ≤ cs.length := by
  rw [primitive_eq, List.length_map, List.length_take]
  exact Nat.min_le_right _ _

/-- **The last factor has no rational root**, if it is searched. -/
theorem not_isRoot_rest {cs : List ℚ} (leading : HasLeading cs) (short : cs.length ≤ peelLimit + 3)
    (long : 3 < (completeFactors cs).rest.length) (within : WithinLimit (completeFactors cs).rest)
    (r : ℚ) : ¬ (polynomialOf (completeFactors cs).rest).IsRoot r := by
  have rest := (completeFactors_rest cs).resolve_left (Nat.not_le.mpr long)
  rw [rest] at long within ⊢
  have none := not_hasRoot_peelLinear (hasLeading_primitive leading)
    ((length_primitive_le cs).trans short) long within r
  rw [hasRoot, decide_eq_false_iff_not] at none
  rwa [IsRoot.def, eval_polynomialOf]

/-! ## The size of the coefficients -/

theorem leadingCoeff_div_content {cs : List ℚ} (leading : HasLeading cs) :
    (polynomialOf cs).leadingCoeff / Rational.content cs = (primitive cs).head?.getD 0 := by
  obtain ⟨a, rest, nonzero, front⟩ := hasLeading_primitive leading
  have content := content_ne_zero leading
  rw [← polynomialOf_primitive leading, leadingCoeff_mul, leadingCoeff_mul_X_pow, leadingCoeff_C,
    mul_div_cancel_left₀ _ content, front, leadingCoeff_polynomialOf nonzero]
  rfl

theorem trailingCoeff_polynomialOf {cs : List ℚ} {c : ℚ} (last : c ∈ cs.getLast?) (nonzero : c ≠ 0) :
    (polynomialOf cs).trailingCoeff = c := by
  obtain ⟨front, rfl⟩ := List.getLast?_eq_some_iff.mp last
  have constant : (polynomialOf (front ++ [c])).coeff 0 = c := by
    rw [polynomialOf_append]
    simp
  rw [trailingCoeff_eq_coeff_zero (by rwa [constant]), constant]

theorem trailingCoeff_div_content {cs : List ℚ} (leading : HasLeading cs) :
    (polynomialOf cs).trailingCoeff / Rational.content cs = (primitive cs).getLast?.getD 0 := by
  obtain ⟨c, last, nonzero⟩ := exists_getLast_primitive leading
  have content := content_ne_zero leading
  have common : (C (Rational.content cs) * X ^ commonPower cs).trailingCoeff = Rational.content cs := by
    rw [C_mul_X_pow_eq_monomial, trailingCoeff, natTrailingDegree_monomial content, coeff_monomial_same]
  rw [← polynomialOf_primitive leading, trailingCoeff_mul, common,
    trailingCoeff_polynomialOf last nonzero, mul_div_cancel_left₀ _ content, Option.mem_def.mp last]
  rfl

/-- **The last factor is searched**, if the product of the leading and the lowest coefficient is within
the limit. -/
theorem withinLimit_rest {cs : List ℚ} (leading : HasLeading cs)
    (long : 3 < (completeFactors cs).rest.length)
    (small : |(polynomialOf cs).leadingCoeff / Rational.content cs| *
      |(polynomialOf cs).trailingCoeff / Rational.content cs| ≤ Rational.factorLimit) :
    WithinLimit (completeFactors cs).rest := by
  obtain ⟨-, nonzero, nonzero'⟩ := isQuotient_primitive leading
  have whole : ∀ q ∈ primitive cs, ((q.num.natAbs : ℕ) : ℚ) = |q| := by
    intro q mem
    rw [primitive_eq_intCast leading] at mem
    obtain ⟨n, -, rfl⟩ := List.mem_map.mp mem
    rw [Rat.num_intCast, Nat.cast_natAbs, Int.cast_abs]
  obtain ⟨a, rest, -, front⟩ := hasLeading_primitive leading
  obtain ⟨c, last, -⟩ := exists_getLast_primitive leading
  have first : (primitive cs).head? = some a := by rw [front, List.head?_cons]
  rw [leadingCoeff_div_content leading, trailingCoeff_div_content leading, first,
    Option.mem_def.mp last, Option.getD_some, Option.getD_some, ← whole a (List.mem_of_head? first),
    ← whole c (List.mem_of_getLast? last)] at small
  apply (isQuotient_rest leading long).withinLimit nonzero nonzero'
  rw [first, Option.mem_def.mp last]
  exact_mod_cast small

end Dense

namespace Poly

/-- The coefficients of `(1000003x - 1)(2x - 3)(x² + 1000003)`. -/
def largeQuartic : List ℚ :=
  [2000006, -3000011, 2000012000021, -3000020000033, 3000009]

end Poly

end ExactAlgebra
