import ExactAlgebra.Proofs.Equation.RationalRoots
import ExactAlgebra.Proofs.Factoring.Text

/-!
# What is left unsplit

Complete factoring ends with a factor that is not split any further. If the degree of that is above
two, the search has stopped for one of three reasons: there is no rational root, the coefficients are
too large to be searched, or as many linear factors have been divided out as are allowed.

A quadratic may be left over that does have rational roots, as quadratics are split at the beginning
only. The factored text has each of them factored once more. So the quadratics in the text have no
rational root, apart from single terms.

## Main statements

* `Dense.not_hasRoot_displayPieces` — the quadratics among the factors for display;
* `Dense.completePieces_eq`, `Poly.factorCompletely_peeled` — complete factoring goes on from the basic
  one;
* `Dense.completeFactors_justified` — why the last factor is left;
* `Poly.unsplit_justified` — what is left by the complete factoring and by the text, and why.

## Main definitions

* `Poly.HasNoRationalRoot` — no rational number has the value zero.
-/

namespace ExactAlgebra

open Polynomial

/-- **A polynomial without a rational root** has a value at every rational number, which is not
zero. -/
def Poly.HasNoRationalRoot (p : Poly) : Prop :=
  ∀ r : ℚ, ∃ v, p.evaluate r = .ok v ∧ v ≠ 0

namespace Dense

variable {d piece : Dense}

/-! ## The polynomial of a factor -/

/-- A factor with a single coefficient other than zero is a monomial. -/
theorem isMonomial_poly (leading : HasLeading d.coefficients)
    (one : hasSeveralTerms d.coefficients = false) : d.poly.isMonomial = true := by
  obtain ⟨a, rest, nonzero, front⟩ := leading
  have represents := represents_poly d
  have value : d.poly.toPolynomial = monomial rest.length a := by
    rw [represents.value, front, eq_single_of_not_several nonzero (front ▸ one), single,
      polynomialOf_cons, polynomialOf_replicate_zero, List.length_replicate, add_zero,
      C_mul_X_pow_eq_monomial]
  have terms : d.poly.terms = (Poly.ofTerm (Term.natural a rest.length) d.symbol).terms := by
    apply Poly.terms_eq_of_toPolynomial_eq represents.natural (Poly.isNatural_ofTerm_natural _ _ _)
    rw [value, Poly.toPolynomial_ofTerm_natural]
  rw [Poly.isMonomial, terms, Poly.terms_ofTerm nonzero]
  rfl

theorem hasNoRationalRoot_ofCoefficients {cs : List ℚ} (none : ∀ r, hasRoot cs r = false)
    (symbol : String) : (Poly.ofCoefficients cs symbol).HasNoRationalRoot := by
  intro r
  refine ⟨_, Poly.evaluate_ofCoefficients _ _ r, ?_⟩
  simpa [hasRoot] using none r

/-! ## Quadratics -/

/-- A quadratic that is not split has no rational root. -/
theorem not_hasRoot_of_whole {cs : List ℚ} (quadratic : cs.length = 3)
    (whole : splitQuadratic cs = ⟨[], cs⟩) (r : ℚ) : hasRoot cs r = false := by
  match cs, quadratic with
  | [a, b, c], _ =>
    have none : quadraticRoots? a b c = none := by
      cases roots : quadraticRoots? a b c with
      | none => rfl
      | some roots =>
        simp only [splitQuadratic, roots] at whole
        cases congrArg Factors.front whole
    have irrational := not_isRoot_quadratic (quadraticRoots?_eq_none_iff.mp none) r
    rwa [IsRoot.def, eval_polynomialOf, ← decide_eq_false_iff_not] at irrational

/-- **The quadratics among the factors of a quadratic** have no rational root. -/
theorem not_hasRoot_completePieces (leading : HasLeading d.coefficients)
    (short : d.coefficients.length ≤ 3) (mem : piece ∈ completePieces d)
    (quadratic : piece.coefficients.length = 3)
    (several : hasSeveralTerms piece.coefficients = true) (r : ℚ) :
    hasRoot piece.coefficients r = false := by
  rw [completePieces, (splits_completeFactors leading).pieces_eq leading] at mem
  obtain ⟨cs, inside, rfl⟩ := List.mem_map.mp mem
  rcases List.mem_append.mp inside with front | last
  · -- what is split off is shorter, or a single term
    rcases simple_of_mem_completeFactors front with low | one
    · exact absurd quadratic (Nat.ne_of_lt (Nat.lt_succ_of_le low))
    · rw [one] at several
      cases several
  · obtain rfl := List.mem_singleton.mp last
    have low : (primitive d.coefficients).length ≤ 3 := (length_primitive_le _).trans short
    dsimp only at quadratic ⊢
    rw [completeFactors_rest_eq] at quadratic ⊢
    rcases splitQuadratic_cases (primitive d.coefficients) with whole | ⟨a, b, c, s, t, -, -, split⟩
    · rw [whole, peelLinear_of_short peelLimit low] at quadratic ⊢
      exact not_hasRoot_of_whole quadratic whole r
    · have linear : (linear t).length ≤ 3 := by simp [Dense.linear]
      rw [split, peelLinear_of_short peelLimit linear] at quadratic
      cases quadratic

/-- **The quadratics among the factors for display** have no rational root, unless they are single
terms. -/
theorem not_hasRoot_displayPieces (leading : HasLeading d.coefficients)
    (mem : piece ∈ displayPieces d) (quadratic : piece.coefficients.length = 3)
    (several : hasSeveralTerms piece.coefficients = true) (r : ℚ) :
    hasRoot piece.coefficients r = false := by
  obtain ⟨left, inside, mem⟩ := List.mem_flatMap.mp mem
  have first := (madeOf_completePieces leading).leading left inside
  split at mem
  · rename_i again
    rw [Bool.and_eq_true, decide_eq_true_eq] at again
    exact not_hasRoot_completePieces first again.1.le mem quadratic several r
  · rename_i once
    -- it would have been factored again
    obtain rfl := List.mem_singleton.mp mem
    simp [quadratic, several] at once

theorem hasNoRationalRoot_displayPieces (leading : HasLeading d.coefficients)
    (mem : piece ∈ displayPieces d) (quadratic : piece.poly.degree? = some 2)
    (several : piece.poly.isMonomial = false) : piece.poly.HasNoRationalRoot := by
  have first := (madeOf_displayPieces leading).leading piece mem
  have degree := (dense_poly first).2
  refine hasNoRationalRoot_ofCoefficients ?_ piece.symbol
  apply not_hasRoot_displayPieces leading mem
  · rw [quadratic] at degree
    have two : piece.coefficients.length - 1 = 2 := by
      exact_mod_cast (Option.some.inj degree).symm
    omega
  · by_contra one
    rw [isMonomial_poly first (by simpa using one)] at several
    cases several

/-! ## Both levels of factoring -/

/-- Once something is split off, the factors have a name for their variable. -/
theorem Factors.symbol_of_split {f : Factors} (some : f.front ≠ []) :
    f.symbol d = if d.symbol = "" then "x" else d.symbol := by
  by_cases nameless : d.symbol = "" <;> simp [Factors.symbol, nameless, some]

/-- **Complete factoring goes on from the basic one**: linear factors are divided out of what that
has left over. -/
theorem completePieces_eq (leading : HasLeading d.coefficients) :
    completePieces d = ((basicFactors d.coefficients).pieces d).dropLast ++
      (peelLinear peelLimit (basicFactors d.coefficients).rest).front.map
        (fun coefficients => ⟨coefficients, if d.symbol = "" then "x" else d.symbol⟩) ++
      [⟨(completeFactors d.coefficients).rest, (completeFactors d.coefficients).symbol d⟩] := by
  have front : (completeFactors d.coefficients).front = (basicFactors d.coefficients).front ++
      (peelLinear peelLimit (basicFactors d.coefficients).rest).front := rfl
  rw [completePieces, (splits_completeFactors leading).pieces_eq leading,
    (splits_basicFactors leading).pieces_eq leading, Factors.all, Factors.all, List.map_append,
    List.map_append, List.map_singleton, List.map_singleton, List.dropLast_concat, front,
    List.map_append]
  -- the names differ only where there are no factors
  congr 2
  · by_cases none : (basicFactors d.coefficients).front = []
    · rw [none]
      rfl
    · rw [Factors.symbol_of_split none, Factors.symbol_of_split (by simp [front, none])]
  · by_cases none : (peelLinear peelLimit (basicFactors d.coefficients).rest).front = []
    · rw [none]
      rfl
    · rw [Factors.symbol_of_split (by simp [front, none])]

/-- **The last factor is left for a reason**, if its degree is above two. -/
theorem completeFactors_justified {cs : List ℚ} (leading : HasLeading cs)
    (long : 3 < (completeFactors cs).rest.length) :
    (∀ r, hasRoot (completeFactors cs).rest r = false) ∨ ¬ WithinLimit (completeFactors cs).rest ∨
      (peelLinear peelLimit (basicFactors cs).rest).front.length = peelLimit :=
  peelLinear_justified peelLimit (splits_basicFactors leading).leading_rest long

end Dense

/-! ## Polynomials -/

namespace Poly

open ExactAlgebra.Dense

variable {p : Poly} {cs : List ℚ}

/-- **Complete factoring goes on from the basic one**, for polynomials. -/
theorem factorCompletely_peeled (found : p.dense = .ok cs) (leading : HasLeading cs) :
    ∃ basic, p.factorBasic = .ok basic ∧
      p.factorCompletely = .ok (basic.dropLast ++
        (peelLinear peelLimit (basicFactors cs).rest).front.map (ofCoefficients · p.symbolOrX) ++
        [ofCoefficients (completeFactors cs).rest ((completeFactors cs).symbol ⟨cs, p.symbol⟩)]) := by
  have pieces := completePieces_eq (d := ⟨cs, p.symbol⟩) leading
  rw [completePieces] at pieces
  refine ⟨_, factorWith_of_leading basicFactors found leading, ?_⟩
  rw [factorCompletely, factorWith_of_leading completeFactors found leading, pieces,
    List.map_append, List.map_append, List.map_dropLast, List.map_map]
  rfl

/-- The last factor of a polynomial is left for a reason, if its degree is above two. -/
theorem justified_last (leading : HasLeading cs) (symbol : String) {n : ℚ}
    (degree : (ofCoefficients (completeFactors cs).rest symbol).degree? = some n) (above : 2 < n) :
    (ofCoefficients (completeFactors cs).rest symbol).HasNoRationalRoot ∨
      (∃ ds, (ofCoefficients (completeFactors cs).rest symbol).dense = .ok ds ∧ ¬ WithinLimit ds) ∨
        (peelLinear peelLimit (basicFactors cs).rest).front.length = peelLimit := by
  obtain ⟨found, degree'⟩ := dense_poly (d := ⟨(completeFactors cs).rest, symbol⟩)
    (splits_completeFactors leading).leading_rest
  obtain rfl : (((completeFactors cs).rest.length - 1 : ℕ) : ℚ) = n :=
    Option.some.inj (degree'.symm.trans degree)
  have long : 2 < (completeFactors cs).rest.length - 1 := by exact_mod_cast above
  rcases completeFactors_justified leading (by omega) with none | beyond | limit
  · exact .inl (hasNoRationalRoot_ofCoefficients none symbol)
  · exact .inr (.inl ⟨_, found, beyond⟩)
  · exact .inr (.inr limit)

/-- **What is left unsplit** is left for a reason. Complete factoring divides linear factors out of
what the basic factoring leaves over. If the last factor has a degree above two, then it has no
rational root, or its constant or its leading coefficient is beyond the limit of the search, or
exactly as many linear factors came off as are allowed. In the factored text no quadratic of several
terms has a rational root. -/
theorem unsplit_justified (p : Poly) (rational : p.hasRationalCoefficients = true)
    (powers : p.hasNaturalPowers = true) :
    ∃ cs basic peeled last, p.dense = .ok cs ∧ p.factorBasic = .ok basic ∧
      p.factorCompletely = .ok (basic.dropLast ++ peeled ++ [last]) ∧
      (∀ q ∈ peeled, ∃ r, q = .ofCoefficients (linear r) p.symbolOrX) ∧
      (∀ n, last.degree? = some n → 2 < n →
        last.HasNoRationalRoot ∨ (∃ ds, last.dense = .ok ds ∧ ¬ WithinLimit ds) ∨
          peeled.length = peelLimit) ∧
      p.factoredText =
        .ok (if p.isZero then "0" else productText (displayPieces ⟨cs, p.symbol⟩)) ∧
      (p.isZero = false → ∀ piece ∈ displayPieces ⟨cs, p.symbol⟩, piece.poly.degree? = some 2 →
        piece.poly.isMonomial = false → piece.poly.HasNoRationalRoot) := by
  obtain ⟨cs, found, -, shape⟩ := dense_natural (p.isNatural_iff.mpr ⟨rational, powers⟩)
  have text : p.factoredText =
      .ok (if p.isZero then "0" else productText (displayPieces ⟨cs, p.symbol⟩)) := by
    rw [factoredText, found]
    split <;> rfl
  rcases shape with ⟨rfl, none⟩ | ⟨leading, -⟩
  · -- the zero polynomial is its own only factor, on both levels
    have itself : ∀ factors, p.factorWith factors = .ok [p] := by
      intro factors
      rw [factorWith, found]
      rfl
    refine ⟨[], [p], [], p, found, itself _, itself _, by simp, ?_, text, ?_⟩
    · intro n some
      cases none.symm.trans some
    · intro some
      rw [p.isZero_iff.mpr none] at some
      cases some
  · obtain ⟨basic, factored, complete⟩ := factorCompletely_peeled found leading
    refine ⟨cs, basic, _, _, found, factored, complete, ?_, ?_, text, ?_⟩
    · intro q mem
      obtain ⟨g, inside, rfl⟩ := List.mem_map.mp mem
      obtain ⟨r, rfl⟩ := exists_linear_of_mem_peelLinear _ inside
      exact ⟨r, rfl⟩
    · rw [List.length_map]
      exact fun n => justified_last leading _
    · exact fun _ piece mem => hasNoRationalRoot_displayPieces leading mem

/-- Of `x⁴ - x³ - 2·x + 2` the cubic `x³ - 2` is left over, which has no rational root. -/
theorem unsplit_justified_quartic :
    (ofCoefficients [1, -1, 0, -2, 2] "x").factorCompletely =
        .ok [ofCoefficients [1, -1] "x", ofCoefficients [1, 0, 0, -2] "x"] ∧
      (ofCoefficients [1, 0, 0, -2] "x").HasNoRationalRoot := by
  obtain ⟨cs, basic, peeled, last, found, factored, complete, -, reason, -, -⟩ :=
    unsplit_justified (ofCoefficients [1, -1, 0, -2, 2] "x") (by decide +kernel) (by decide +kernel)
  have value : (ofCoefficients [1, -1, 0, -2, 2] "x").factorCompletely =
      .ok [ofCoefficients [1, -1] "x", ofCoefficients [1, 0, 0, -2] "x"] := by decide +kernel
  have parts := Except.ok.inj (complete.symm.trans value)
  have same : last = ofCoefficients [1, 0, 0, -2] "x" := by
    simpa using congrArg List.getLast? parts
  have few := congrArg List.length parts
  subst same
  refine ⟨value, ?_⟩
  rcases reason 3 (by decide +kernel) (by norm_num) with none | ⟨ds, found', beyond⟩ | limit
  · exact none
  · have coefficients : ds = [1, 0, 0, -2] :=
      Except.ok.inj (found'.symm.trans (by decide +kernel))
    subst coefficients
    exact absurd (by unfold WithinLimit; decide +kernel) beyond
  · simp [limit, peelLimit] at few

end Poly

end ExactAlgebra
