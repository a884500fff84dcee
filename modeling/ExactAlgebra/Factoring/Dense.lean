import ExactAlgebra.Poly.Arithmetic

/-!
# Coefficient lists

Factoring works on polynomials with rational coefficients and natural powers, and those are lists of
rationals: the coefficients from the highest power down, the first of them not zero. This module
holds the operations on such lists that need no search.

## Main definitions

* `Dense` — a coefficient list with the name of its variable;
* `divideLinear` — quotient and remainder by `x - r`;
* `primitive` — the list without its content and without its common power;
* `Poly.divideByLinear`, `Poly.divideOutRoot` — the same division for polynomials.
-/

namespace ExactAlgebra

/-- **A polynomial by its coefficients**, highest power first. -/
structure Dense where
  coefficients : List Rat
  symbol : String
  deriving DecidableEq

namespace Dense

/-- The polynomial with these coefficients. -/
def poly (d : Dense) : Poly :=
  .ofCoefficients d.coefficients d.symbol

/-- The linear polynomial `x - r`. -/
def linear (r : Rat) : List Rat :=
  [1, -r]

/-- Division by `x - root`: the values carried down while the remaining coefficients come in, and
the last of them. -/
def divideFrom (root carried : Rat) : List Rat → List Rat × Rat
  | [] => ([], carried)
  | c :: rest =>
    let (quotient, remainder) := divideFrom root (c + carried * root) rest
    (carried :: quotient, remainder)

/-- **Quotient and remainder by `x - root`**, by carrying the leading coefficient down. -/
def divideLinear (coefficients : List Rat) (root : Rat) : List Rat × Rat :=
  match coefficients with
  | [] => ([], 0)
  | c :: rest => divideFrom root c rest

/-- The power of the variable that divides every term. -/
def commonPower (coefficients : List Rat) : Nat :=
  (coefficients.reverse.takeWhile (· = 0)).length

/-- **The coefficients without content and common power**: coprime integers, the last one not
zero. -/
def primitive (coefficients : List Rat) : List Rat :=
  let c := Rational.content coefficients
  (coefficients.take (coefficients.length - commonPower coefficients)).map (· / c)

/-- The coefficients of the single term `c · x ^ n`. -/
def single (c : Rat) (n : Nat) : List Rat :=
  c :: List.replicate n 0

end Dense

namespace Poly

/-- The name of the variable, `x` if there is none. -/
def symbolOrX (p : Poly) : String :=
  if p.symbol = "" then "x" else p.symbol

/-- **Division by `x - root`**: quotient and remainder of a polynomial that is no constant. -/
def divideByLinear (p : Poly) (root : Rat) : Except Error (Poly × Rat) := do
  let coefficients ← p.dense
  if coefficients.length < 2 then throw (.constantOverLinear p.text)
  let (quotient, remainder) := Dense.divideLinear coefficients root
  return (.ofCoefficients quotient p.symbolOrX, remainder)

/-- **Division by `x - root` without remainder**, refused if `root` is no root. -/
def divideOutRoot (p : Poly) (root : Rat) : Except Error Poly := do
  let (quotient, remainder) ← p.divideByLinear root
  if remainder ≠ 0 then throw (.notARoot root p.text remainder)
  return quotient

end Poly

end ExactAlgebra
