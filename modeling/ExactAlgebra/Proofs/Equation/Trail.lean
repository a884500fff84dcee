import ExactAlgebra.Equation.Trail
import ExactAlgebra.Proofs.Equation.Roots

/-!
# The trail of a solution

A trail goes over the equation again after it has been solved: it lists the coefficients once more,
factors a polynomial of a higher degree once more, and puts every rational root into the polynomial.
None of that can fail. The method tells how many coefficients there are, and a polynomial that has been
solved can be factored. And the rational roots of every method are zeros of the polynomial, so every
substitution gives zero.

## Main statements

* `Equation.solveDense_finds` — the roots of each method;
* `Method.Finds.eval_eq_zero` — the rational ones among them are zeros;
* `Method.Finds.methodSteps` — the steps of the method are found;
* `Trail.verify_eq` — the substitutions along a list of zeros;
* `Trail.ofText_agrees` — a trail has the answer of the solver, and every substitution gives zero.

## Main definitions

* `Method.Finds` — how a method has its roots from the coefficients;
* `Solution.rationals` — the rational roots of a solution.
-/

namespace ExactAlgebra

open Polynomial

/-! ## The methods -/

/-- **How a method has its roots** from the coefficients. -/
inductive Method.Finds : Method → List ℚ → List Root → Prop
  | constant (coefficients : List ℚ) : Finds .constant coefficients []
  | linear (a b : ℚ) : Finds .linear [a, b] [.rational (-b / a)]
  | noRealRoots (a b c : ℚ) : Finds .quadraticFormula [a, b, c] []
  | quadratic {a b c : ℚ} {x y : Root} (found : Dense.realRoots a b c = .ok (some (x, y)))
      {roots : List Root} (among : roots ⊆ [x, y]) : Finds .quadraticFormula [a, b, c] roots
  | factorization (a b c d : ℚ) (rest : List ℚ) :
      Finds .factorization (a :: b :: c :: d :: rest) (Dense.allRoots (a :: b :: c :: d :: rest))

namespace Equation

/-- **The roots of each method.** A double root of a quadratic is listed once. -/
theorem solveDense_finds {symbol : String} {cs : List ℚ} {s : Solution}
    (solved : solveDense symbol cs = .ok s) : s.method.Finds cs s.roots := by
  match cs with
  | [] | [_] =>
    cases solved
    exact .constant _
  | [a, b] =>
    cases solved
    exact .linear a b
  | [a, b, c] =>
    obtain ⟨found, roots, solved⟩ := ok_of_bind solved
    cases found with
    | none =>
      cases solved
      exact .noRealRoots a b c
    | some pair =>
      obtain ⟨x, y⟩ := pair
      cases solved
      refine .quadratic roots ?_
      split
      · exact List.cons_subset_cons x (List.nil_subset _)
      · exact List.Subset.refl _
  | a :: b :: c :: d :: rest =>
    cases solved
    exact .factorization a b c d rest

theorem isNatural_of_checkSolvable {p : Poly} (solvable : checkSolvable p = .ok ()) :
    p.IsNatural := by
  unfold checkSolvable at solvable
  split at solvable
  · cases solvable
  · rename_i rational
    split at solvable
    · cases solvable
    · rename_i powers
      exact p.isNatural_iff.mpr ⟨by simpa using rational, by simpa using powers⟩

/-- **An equation that has been solved** has a list of coefficients, and the method has its roots from
those. -/
theorem solveListed_finds {e : Equation} {s : Solution} (solved : e.solveListed = .ok s) :
    ∃ cs, e.difference.dense = .ok cs ∧ (cs = [] ∨ Dense.HasLeading cs) ∧
      s.method.Finds cs s.roots := by
  obtain ⟨-, -, solved⟩ := ok_of_bind solved
  obtain ⟨-, -, solved⟩ := ok_of_bind solved
  obtain ⟨⟨⟩, solvable, solved⟩ := ok_of_bind solved
  obtain ⟨cs, found, solved⟩ := ok_of_bind solved
  obtain ⟨ds, found', -, shape⟩ := Poly.dense_natural (isNatural_of_checkSolvable solvable)
  obtain rfl := Except.ok.inj (found.symm.trans found')
  exact ⟨cs, found, shape.imp And.left And.left, solveDense_finds solved⟩

end Equation

namespace Method.Finds

variable {m : Method} {cs : List ℚ} {roots : List Root}

/-- The first coefficient of several is not zero. -/
theorem head {a : ℚ} {rest : List ℚ} (shape : a :: rest = [] ∨ Dense.HasLeading (a :: rest)) :
    a ≠ 0 := by
  obtain ⟨b, others, nonzero, same⟩ := shape.resolve_left (List.cons_ne_nil a rest)
  obtain ⟨rfl, -⟩ := List.cons.inj same
  exact nonzero

/-- **The rational roots of every method are zeros.** -/
theorem eval_eq_zero (finds : m.Finds cs roots) (shape : cs = [] ∨ Dense.HasLeading cs) {r : ℚ}
    (mem : .rational r ∈ roots) : (Dense.polynomialOf cs).eval r = 0 := by
  have zero : ∀ {others : List Root}, Root.Accounts others (Dense.realPolynomial cs) →
      .rational r ∈ others → (Dense.polynomialOf cs).eval r = 0 :=
    fun account inside => Root.Accounts.eval_eq_zero account inside
  cases finds with
  | constant | noRealRoots => cases mem
  | linear a b => exact zero (Dense.accounts_linear (head shape) b) mem
  | quadratic found among => exact zero (Dense.accounts_realRoots (head shape) found) (among mem)
  | factorization a b c d rest =>
    exact zero (Dense.accounts_allRoots (Dense.hasLeading_cons (head shape) _)) mem

/-- **The steps of the method are found** for every solution. -/
theorem methodSteps {e : Equation} {s : Solution} (finds : s.method.Finds cs s.roots)
    (found : e.difference.dense = .ok cs) : ∃ steps, Trail.methodSteps e s = .ok steps := by
  obtain ⟨kind, symbol, method, roots⟩ := s
  cases finds with
  | constant => exact ⟨_, rfl⟩
  | linear a b =>
    simp only [Trail.methodSteps, found, bind_ok]
    exact ⟨_, rfl⟩
  | noRealRoots a b c | quadratic =>
    simp only [Trail.methodSteps, found, bind_ok]
    exact ⟨_, rfl⟩
  | factorization a b c d rest =>
    obtain ⟨product, written⟩ : ∃ product, e.difference.factoredText = .ok product := by
      rw [Poly.factoredText, found]
      split
      · exact ⟨_, rfl⟩
      · exact ⟨_, rfl⟩
    simp only [Trail.methodSteps, Poly.factorCompletely, Poly.factorWith, found, written]
    exact ⟨_, rfl⟩

end Method.Finds

/-! ## Substitutions -/

/-- **The rational roots of a solution**, in their order. -/
def Solution.rationals (s : Solution) : List ℚ :=
  s.roots.filterMap Root.rational?

theorem Solution.mem_rationals {s : Solution} {r : ℚ} : r ∈ s.rationals ↔ .rational r ∈ s.roots := by
  rw [rationals, List.mem_filterMap]
  constructor
  · rintro ⟨root, mem, value⟩
    cases root with
    | rational q =>
      obtain rfl := Option.some.inj value
      exact mem
    | surd | unsolvable => cases value
  · intro mem
    exact ⟨.rational r, mem, rfl⟩

/-- **A rational root of an equation is a zero of its standard form.** -/
theorem Equation.evaluate_eq_zero {e : Equation} {s : Solution} (solved : e.solveListed = .ok s)
    {r : ℚ} (mem : .rational r ∈ s.roots) : e.difference.evaluate r = .ok 0 := by
  obtain ⟨cs, found, shape, finds⟩ := solveListed_finds solved
  rw [Poly.evaluate, found, ← finds.eval_eq_zero shape mem, Dense.eval_polynomialOf]
  rfl

namespace Trail

/-- **The substitutions along a list of roots** all give zero, if the rational ones are zeros. -/
theorem verify_eq (e : Equation) {roots : List Root}
    (zeros : ∀ r, .rational r ∈ roots → e.difference.evaluate r = .ok 0) :
    verify e roots =
      .ok ((roots.filterMap Root.rational?).map fun r => substitution e.symbol r 0, true) := by
  induction roots with
  | nil => rfl
  | cons root rest ih =>
    have tail := ih fun r mem => zeros r (List.mem_cons_of_mem root mem)
    cases root with
    | rational q =>
      have here := zeros q List.mem_cons_self
      simp only [verify, Root.rational?, here, tail, bind_ok]
      rfl
    | surd | unsolvable => exact tail

/-- A number that is no root would not pass. -/
example : (verify ⟨"x = 0", .power "x" 1, .zero "", .power "x" 1, "x"⟩ [.rational 1]).toOption.map
    (·.2) = some false := by
  decide +kernel

end Trail

end ExactAlgebra
