import ExactAlgebra.Factoring.Dense

/-!
# Rational roots

A rational root `a/b` in lowest terms of a polynomial with integer coefficients has `a` dividing the
constant and `b` dividing the leading coefficient. So the roots are among finitely many candidates,
and those are tried in a fixed order: whole numbers first, then by the size of the numerator, a
positive number before its opposite.

## Main definitions

* `integerCoefficients` — the coefficients with all denominators cleared;
* `candidates` — the candidates of a coefficient list;
* `Poly.candidateRoots`, `Poly.rationalRoots` — those of a polynomial, and the ones that are roots.
-/

namespace ExactAlgebra

namespace Dense

/-- The common denominator of some rationals. -/
def commonDenominator (values : List Rat) : Nat :=
  values.foldl (fun l q => Nat.lcm l q.den) 1

/-- The coefficients multiplied by their common denominator. -/
def integerCoefficients (coefficients : List Rat) : List Int :=
  let d := commonDenominator coefficients
  coefficients.map fun q => (q * (d : Rat)).num

/-- A number and its opposite. -/
def bothSigns (q : Rat) : List Rat :=
  [q, -q]

/-- **The candidates `±a/b`** with `a` from the first list and `b` from the second, each in lowest
terms and once. Both lists ascend and begin with `1`, so the whole numbers come first and numerators
never get smaller within each group. -/
def fractions (numerators denominators : List Nat) : List Rat :=
  (numerators.flatMap fun a : Nat => bothSigns (a : Rat)) ++
    numerators.flatMap fun a : Nat =>
      (denominators.filter fun b => b ≠ 1 && Nat.gcd a b = 1).flatMap fun b : Nat =>
        bothSigns ((a : Rat) / (b : Rat))

/-- **The candidates for a rational root.** Without a constant term zero is the only one. If the
constant or the leading coefficient is too large to find its divisors, there are none. -/
def candidates (coefficients : List Rat) : List Rat :=
  if coefficients.length < 2 then []
  else
    let integers := integerCoefficients coefficients
    let constant := (integers.getLast?.getD 0).natAbs
    let leading := (integers.head?.getD 0).natAbs
    if constant = 0 then [0]
    else if Rational.factorLimit < constant ∨ Rational.factorLimit < leading then []
    else
      fractions (Rational.divisorsFrom constant 1 [] []) (Rational.divisorsFrom leading 1 [] [])

/-- Whether a number is a root. -/
def hasRoot (coefficients : List Rat) (r : Rat) : Bool :=
  Poly.horner coefficients r = 0

/-- The candidates that are roots. -/
def rationalRoots (coefficients : List Rat) : List Rat :=
  (candidates coefficients).filter (hasRoot coefficients)

end Dense

namespace Poly

/-- **The candidates for a rational root** of a polynomial with rational coefficients and natural
powers. -/
def candidateRoots (p : Poly) : Except Error (List Rat) :=
  p.dense.map Dense.candidates

/-- **The rational roots among the candidates.** -/
def rationalRoots (p : Poly) : Except Error (List Rat) :=
  p.dense.map Dense.rationalRoots

end Poly

end ExactAlgebra
