import ExactAlgebra.Proofs.Equation.Scaling
import Mathlib.Algebra.QuadraticDiscriminant

/-!
# Equations up to degree two

Up to degree two an equation is not only answered correctly but completely: the kind of the answer says
what the standard form is, and the roots that are listed are all the real numbers where it vanishes,
each once. The roots of one quadratic are compared as they are written, and then they are different
numbers: rationals are what they are, and two radicals on either side of one middle can only coincide
there, which needs a discriminant that is zero and hence a square.

The quadratic formula divides a root in simplest form by a rational. The radicand of the root is within
the limit already, so this division is not refused, and the root of the discriminant is the only thing
that can be.

## Main statements

* `Radical.div_of_sqrt`, `Dense.realRoots_eq` — the quadratic formula as it is computed;
* `Root.Accounts.isRoot_iff` — roots without a marker are all roots;
* `Dense.lists_quadratic` — the roots of a quadratic, without duplicates;
* `SolutionKind.Means.iff_eq` — the kinds of answers exclude each other;
* `Equation.solve_complete` — the answer to an equation.

## Main definitions

* `Root.Lists` — the roots are all roots of a polynomial, each once;
* `SolutionKind.Means` — what a kind of answer says about a polynomial.
-/

namespace ExactAlgebra

open Polynomial

/-! ## The quadratic formula -/

/-- **A root in simplest form can be divided** by any rational other than zero. -/
theorem Radical.div_of_sqrt {q k : ℚ} (nonzero : k ≠ 0) {root : Radical}
    (made : sqrt q = .ok root) : root.div (ofRat k) = .ok (root.scale (1 / k)) := by
  have small := root.isMade_iff.mp ⟨1, q, made⟩
  have isSome : ¬ (ofRat k).isZero = true := by
    rw [isZero, decide_eq_true_eq]
    exact nonzero
  have radicand : (root.radicand : ℚ) * ((ofRat k).radicand : ℚ) = (root.radicand : ℚ) := by
    rw [ofRat, Nat.cast_one, mul_one]
  have coefficient : root.coefficient / ((ofRat k).coefficient * ((ofRat k).radicand : ℚ)) =
      1 / k * root.coefficient := by
    rw [ofRat, Nat.cast_one, mul_one, one_div_mul_eq_div]
  rw [div, if_neg isSome, radicand, coefficient, make_natCast _ root.squareFree small]
  rfl

namespace Dense

/-- **The quadratic formula as it is computed**: the rational roots if the discriminant is a square, and
otherwise its root in simplest form, divided by the leading coefficient doubled. -/
theorem realRoots_eq {a : ℚ} (nonzero : a ≠ 0) (b c : ℚ) :
    realRoots a b c =
      if discriminant a b c < 0 then .ok none
      else match Rational.sqrt? (discriminant a b c) with
        | some root => .ok (some (.rational ((-b + root) / (2 * a)), .rational ((-b - root) / (2 * a))))
        | none => do
          let root ← Radical.sqrt (discriminant a b c)
          let offset ← root.div (.ofRat (2 * a))
          return some (.surd (-b / (2 * a)) offset, .surd (-b / (2 * a)) offset.neg) := by
  have roots : quadraticRoots? a b c = (Rational.sqrt? (discriminant a b c)).map fun root =>
      ((-b + root) / (2 * a), (-b - root) / (2 * a)) := rfl
  rw [realRoots, roots]
  cases Rational.sqrt? (discriminant a b c) with
  | some root => rfl
  | none =>
    cases simplified : Radical.sqrt (discriminant a b c) with
    | error fault => rfl
    | ok root =>
      have divided := Radical.div_of_sqrt (mul_ne_zero two_ne_zero nonzero) simplified
      simp only [Option.map_none, bind, Except.bind, divided]
      rfl

/-- The roots of a quadratic are rational, or they lie on both sides of their middle. -/
theorem realRoots_cases {a b c : ℚ} (nonzero : a ≠ 0) {r s : Root}
    (found : realRoots a b c = .ok (some (r, s))) :
    (∃ x y, r = .rational x ∧ s = .rational y) ∨
      ∃ base offset, r = .surd base offset ∧ s = .surd base offset.neg ∧ offset.real ≠ 0 := by
  rw [realRoots] at found
  split at found
  · cases found
  · rename_i nonneg
    split at found
    · cases found
      exact .inl ⟨_, _, rfl, rfl⟩
    · rename_i none
      obtain ⟨root, simplified, pair⟩ := ok_of_map found
      cases pair
      refine .inr ⟨_, _, rfl, rfl, ?_⟩
      have positive : (0 : ℝ) < (discriminant a b c : ℚ) :=
        Rat.cast_pos.mpr (discriminant_pos nonneg none)
      rw [Radical.real_scale, Radical.real_sqrt simplified]
      refine mul_ne_zero (Rat.cast_ne_zero.mpr ?_) (Real.sqrt_pos.mpr positive).ne'
      exact one_div_ne_zero (mul_ne_zero two_ne_zero nonzero)

/-- Only a negative discriminant leaves a quadratic without roots. -/
theorem discriminant_neg_of_realRoots {a b c : ℚ} (found : realRoots a b c = .ok none) :
    discriminant a b c < 0 := by
  rw [realRoots] at found
  split at found
  · rename_i negative
    exact negative
  · split at found
    · cases found
    · obtain ⟨root, -, pair⟩ := ok_of_map found
      cases pair

end Dense

/-! ## All roots, without duplicates -/

namespace Root

/-- **Without a marker the roots are all roots.** -/
theorem Accounts.isRoot_iff {roots : List Root} {P : ℝ[X]} (account : Accounts roots P)
    (solved : .unsolvable ∉ roots) (x : ℝ) : x ∈ reals roots ↔ P.IsRoot x := by
  have lead : P.leadingCoeff ≠ 0 := leadingCoeff_ne_zero.mpr account.ne_zero
  rw [← mem_roots account.ne_zero, account.eq_prod solved, roots_C_mul _ lead, linearFactors_eq,
    roots_multiset_prod_X_sub_C, Multiset.mem_coe]

/-- **The roots of a polynomial as a list of all of them**: no marker, and every real root once. -/
structure Lists (roots : List Root) (P : ℝ[X]) : Prop where
  solved : .unsolvable ∉ roots
  nodup : (reals roots).Nodup
  mem_iff : ∀ x, x ∈ reals roots ↔ P.IsRoot x

/-- A root that is listed is a real number. -/
theorem Lists.exists_isRoot {roots : List Root} {P : ℝ[X]} (lists : Lists roots P) {r : Root}
    (mem : r ∈ roots) : ∃ x, P.IsRoot x := by
  cases value : r.real? with
  | some x => exact ⟨x, (lists.mem_iff x).mp (List.mem_filterMap.mpr ⟨r, mem, value⟩)⟩
  | none =>
    cases r with
    | unsolvable => exact absurd mem lists.solved
    | rational q => cases value
    | surd base offset => cases value

/-- A double root is listed once. -/
theorem mem_reals_distinct (r s : Root) (x : ℝ) :
    x ∈ reals (if r = s then [r] else [r, s]) ↔ x ∈ reals [r, s] := by
  split
  · rename_i double
    rw [← double]
    simp [reals]
  · rfl

end Root

namespace Dense

open Root

theorem lists_linear {a : ℚ} (nonzero : a ≠ 0) (b : ℚ) :
    Lists [.rational (-b / a)] (realPolynomial [a, b]) where
  solved := by simp
  nodup := by simp
  mem_iff := (accounts_linear nonzero b).isRoot_iff (by simp)

/-- **The roots of a quadratic**, a double root once. -/
theorem lists_quadratic {a b c : ℚ} (nonzero : a ≠ 0) {r s : Root}
    (found : realRoots a b c = .ok (some (r, s))) :
    Lists (if r = s then [r] else [r, s]) (realPolynomial [a, b, c]) := by
  have account := accounts_realRoots nonzero found
  have shape := realRoots_cases nonzero found
  have solved : .unsolvable ∉ [r, s] := by
    rcases shape with ⟨x, y, rfl, rfl⟩ | ⟨base, offset, rfl, rfl, -⟩ <;> simp
  refine ⟨?_, ?_, fun x => ?_⟩
  · split
    · exact fun mem => solved (List.mem_cons.mpr (.inl (List.mem_singleton.mp mem)))
    · exact solved
  · rcases shape with ⟨x, y, rfl, rfl⟩ | ⟨base, offset, rfl, rfl, apart⟩
    · split
      · simp
      · rename_i different
        simpa using different
    · split
      · simp
      · -- the offsets are opposite and not zero
        have opposite : offset.real ≠ -offset.real := fun same => apart (self_eq_neg.mp same)
        simpa [Radical.real_neg] using opposite
  · rw [mem_reals_distinct, account.isRoot_iff solved]

/-- **A quadratic with a negative discriminant has no real roots.** -/
theorem not_isRoot_of_discriminant_neg {a b c : ℚ} (negative : discriminant a b c < 0) (x : ℝ) :
    ¬ (realPolynomial [a, b, c]).IsRoot x := by
  have square : ∀ s : ℝ, discrim (a : ℝ) b c ≠ s ^ 2 := by
    intro s same
    have below : ((discriminant a b c : ℚ) : ℝ) < 0 := Rat.cast_lt_zero.mpr negative
    have value : ((discriminant a b c : ℚ) : ℝ) = discrim (a : ℝ) b c := by
      rw [discriminant, discrim]
      push_cast
      ring
    rw [value, same] at below
    exact absurd (sq_nonneg s) (not_le.mpr below)
  intro root
  apply quadratic_ne_zero_of_discrim_ne_sq square x
  rw [IsRoot, realPolynomial, polynomialOf_quadratic] at root
  simpa [pow_two] using root

end Dense

/-! ## Kinds of answers -/

/-- **What a kind of answer says** about the polynomial of given coefficients. -/
def SolutionKind.Means (cs : List ℚ) : SolutionKind → Prop
  | identity => Dense.polynomialOf cs = 0
  | contradiction => ∃ c, c ≠ 0 ∧ Dense.polynomialOf cs = C c
  | noRealRoots => (Dense.polynomialOf cs).natDegree = 2 ∧ ∀ x, ¬ (Dense.realPolynomial cs).IsRoot x
  | roots => 1 ≤ (Dense.polynomialOf cs).natDegree ∧ ∃ x, (Dense.realPolynomial cs).IsRoot x

namespace SolutionKind.Means

variable {cs : List ℚ} {kind kind' : SolutionKind}

open Classical in
/-- The polynomial decides on the kind of the answer. -/
theorem eq_ite (means : kind.Means cs) :
    kind = if Dense.polynomialOf cs = 0 then .identity
      else if (Dense.polynomialOf cs).natDegree = 0 then .contradiction
      else if ∃ x, (Dense.realPolynomial cs).IsRoot x then .roots else .noRealRoots := by
  cases kind with
  | identity => exact (if_pos means).symm
  | contradiction =>
    obtain ⟨c, nonzero, constant⟩ := means
    rw [constant, if_neg (C_ne_zero.mpr nonzero), if_pos (natDegree_C c)]
  | noRealRoots =>
    obtain ⟨degree, none⟩ := means
    have nonzero : Dense.polynomialOf cs ≠ 0 := ne_zero_of_natDegree_gt (degree ▸ Nat.two_pos)
    rw [if_neg nonzero, if_neg (by omega), if_neg (not_exists.mpr none)]
  | roots =>
    obtain ⟨degree, some⟩ := means
    rw [if_neg (ne_zero_of_natDegree_gt degree), if_neg (by omega), if_pos some]

/-- **The kinds of answers exclude each other.** -/
theorem iff_eq (means : kind.Means cs) : kind = kind' ↔ kind'.Means cs := by
  constructor
  · rintro rfl
    exact means
  · intro other
    exact means.eq_ite.trans other.eq_ite.symm

end SolutionKind.Means

namespace Equation

variable {symbol : String}

/-- **The answer for given coefficients**, up to degree two. -/
theorem solveDense_means {cs : List ℚ} (shape : cs = [] ∨ Dense.HasLeading cs) (low : cs.length ≤ 3)
    {s : Solution} (solved : solveDense symbol cs = .ok s) :
    s.kind.Means cs ∧
      (s.kind = .roots → Root.Lists s.roots (Dense.realPolynomial cs)) := by
  rcases shape with rfl | leading
  · cases solved
    exact ⟨rfl, nofun⟩
  have degree := leading.length_eq
  obtain ⟨a, rest, nonzero, rfl⟩ := leading
  rw [List.length_cons, Nat.add_right_cancel_iff] at degree
  match rest with
  | [] =>
    cases solved
    exact ⟨⟨a, nonzero, Dense.polynomialOf_singleton a⟩, nofun⟩
  | [b] =>
    cases solved
    have lists := Dense.lists_linear nonzero b
    exact ⟨⟨degree.le, lists.exists_isRoot List.mem_cons_self⟩, fun _ => lists⟩
  | [b, c] =>
    obtain ⟨roots, found, done⟩ := ok_of_bind solved
    cases roots with
    | none =>
      cases done
      have negative := Dense.discriminant_neg_of_realRoots found
      exact ⟨⟨degree.symm, Dense.not_isRoot_of_discriminant_neg negative⟩, nofun⟩
    | some pair =>
      obtain ⟨r, r'⟩ := pair
      cases done
      have lists := Dense.lists_quadratic nonzero found
      have listed : r ∈ if r = r' then [r] else [r, r'] := by
        split <;> exact List.mem_cons_self
      have positive : 1 ≤ (Dense.polynomialOf [a, b, c]).natDegree := degree ▸ Nat.le_add_left 1 1
      exact ⟨⟨positive, lists.exists_isRoot listed⟩, fun _ => lists⟩
  | b :: c :: d :: rest =>
    simp only [List.length_cons] at low
    omega

/-- **Up to degree two equations are solved completely.** An equation is refused only if it is quadratic
and its discriminant is positive, no square, and too large. Otherwise the kind of the answer says what
the standard form is, and its roots, if there are any, are all real numbers where it vanishes, each
once. -/
theorem solve_complete (e : Equation) (rational : e.difference.hasRationalCoefficients = true)
    (powers : e.difference.hasNaturalPowers = true) (low : ∀ d, e.difference.degree? = some d → d ≤ 2) :
    ((∃ fault, e.solve = .error fault) ↔
        e.difference.toPolynomial.natDegree = 2 ∧ Radical.RootTooLarge e.difference.discriminant) ∧
      ∀ s, e.solve = .ok s →
        (s.kind = .identity ↔ e.difference.toPolynomial = 0) ∧
        (s.kind = .contradiction ↔ ∃ c, c ≠ 0 ∧ e.difference.toPolynomial = C c) ∧
        (s.kind = .noRealRoots ↔ e.difference.toPolynomial.natDegree = 2 ∧
          ∀ x, ¬ e.difference.realPolynomial.IsRoot x) ∧
        (s.kind = .roots → .unsolvable ∉ s.roots ∧ (Root.reals s.roots).Nodup ∧
          ∀ x, x ∈ Root.reals s.roots ↔ e.difference.realPolynomial.IsRoot x) := by
  obtain ⟨cs, found, value, shape⟩ := Poly.dense_natural ((Poly.isNatural_iff _).mpr ⟨rational, powers⟩)
  have leading : cs = [] ∨ Dense.HasLeading cs := shape.imp And.left And.left
  have short : cs.length ≤ 3 := by
    rcases shape with ⟨rfl, -⟩ | ⟨-, degree⟩
    · decide
    · have small : cs.length - 1 ≤ 2 := by exact_mod_cast low _ degree
      omega
  rw [solve_eq rational powers found, solveDense_fails_iff]
  refine ⟨exists_quadratic_iff value leading _, fun s solved => ?_⟩
  have real : Dense.realPolynomial cs = e.difference.realPolynomial := by
    rw [Dense.realPolynomial, value]
    rfl
  obtain ⟨means, lists⟩ := solveDense_means leading short solved
  rw [← value, ← real]
  refine ⟨means.iff_eq, means.iff_eq, means.iff_eq, fun kind => ?_⟩
  obtain ⟨solved, nodup, all⟩ := lists kind
  exact ⟨solved, nodup, all⟩

/-- The equation `x^2 - 2 = 0` has two roots, and they are all. -/
theorem solve_complete_roots : ∃ s, (ofPoly (.ofCoefficients [1, 0, -2] "x")).solve = .ok s ∧
    s.kind = .roots ∧ s.roots.length = 2 ∧ (Root.reals s.roots).Nodup ∧
      ∀ x, x ∈ Root.reals s.roots ↔ (Poly.ofCoefficients [1, 0, -2] "x").realPolynomial.IsRoot x := by
  have low : ∀ d, (ofPoly (.ofCoefficients [1, 0, -2] "x")).difference.degree? = some d → d ≤ 2 := by
    intro d degree
    have two : (ofPoly (.ofCoefficients [1, 0, -2] "x")).difference.degree? = some 2 := by
      decide +kernel
    rw [two] at degree
    exact (Option.some.inj degree).ge
  obtain ⟨-, complete⟩ := solve_complete (ofPoly (.ofCoefficients [1, 0, -2] "x")) (by decide +kernel)
    (by decide +kernel) low
  have answer : (ofPoly (.ofCoefficients [1, 0, -2] "x")).solve.toOption.map
      (fun s => (s.kind, s.roots.length)) = some (.roots, 2) := by decide +kernel
  cases solved : (ofPoly (.ofCoefficients [1, 0, -2] "x")).solve with
  | error fault =>
    rw [solved] at answer
    cases answer
  | ok s =>
    rw [solved] at answer
    obtain ⟨kind, two⟩ := Prod.mk.inj (Option.some.inj answer)
    obtain ⟨-, -, -, roots⟩ := complete s solved
    obtain ⟨-, nodup, all⟩ := roots kind
    exact ⟨s, rfl, kind, two, nodup, all⟩

end Equation

end ExactAlgebra
