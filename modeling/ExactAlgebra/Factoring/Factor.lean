import ExactAlgebra.Factoring.RationalRoots

/-!
# Factoring over the rationals

Basic factoring takes out the content and the common power of the variable, and splits what is left
if it is a quadratic with rational roots. Complete factoring goes on: while what is left has a
degree above two, a linear factor is divided out for a rational root, twenty at the most.

What is left at the end is always the last factor.

## Main definitions

* `Factors` — the factors that were split off, and the rest;
* `basicFactors`, `completeFactors` — the two levels, on coefficient lists;
* `Poly.factorBasic`, `Poly.factorCompletely`, `Poly.factoredText` — the same for polynomials.
-/

namespace ExactAlgebra

namespace Dense

/-- **A factored coefficient list**: the factors that were split off, in order, and the rest.
Nothing was split off if `front` is empty. -/
structure Factors where
  front : List (List Rat)
  rest : List Rat
  deriving DecidableEq

/-- The content with the common power, unless both are trivial, and what is left without them. -/
def takeCommon (coefficients : List Rat) : Factors :=
  let c := Rational.content coefficients
  let n := commonPower coefficients
  if c ≠ 1 ∨ n ≠ 0 then ⟨[single c n], primitive coefficients⟩ else ⟨[], coefficients⟩

/-- The roots of `a·x² + b·x + c`, if they are rational; a double root comes twice. -/
def quadraticRoots? (a b c : Rat) : Option (Rat × Rat) :=
  (Rational.sqrt? (b * b - 4 * a * c)).map fun root =>
    ((-b + root) / (2 * a), (-b - root) / (2 * a))

/-- Splits a quadratic with rational roots into its leading coefficient and two linear factors. -/
def splitQuadratic (coefficients : List Rat) : Factors :=
  match coefficients with
  | [a, b, c] =>
    match quadraticRoots? a b c with
    | some (r, s) => ⟨[[a], linear r], linear s⟩
    | none => ⟨[], coefficients⟩
  | _ => ⟨[], coefficients⟩

/-- **Basic factors**: content and common power, then a quadratic that splits. -/
def basicFactors (coefficients : List Rat) : Factors :=
  let common := takeCommon coefficients
  let split := splitQuadratic common.rest
  ⟨common.front ++ split.front, split.rest⟩

/-- Divides out linear factors, at most `n`, while the degree is above two and a candidate is a
root. -/
def peelLinear : Nat → List Rat → Factors
  | 0, coefficients => ⟨[], coefficients⟩
  | n + 1, coefficients =>
    if coefficients.length ≤ 3 then ⟨[], coefficients⟩
    else
      match (candidates coefficients).find? (hasRoot coefficients) with
      | none => ⟨[], coefficients⟩
      | some r =>
        let peeled := peelLinear n (divideLinear coefficients r).1
        ⟨linear r :: peeled.front, peeled.rest⟩

/-- The largest number of linear factors that are divided out. -/
def peelLimit : Nat :=
  20

/-- **Complete factors**: the basic ones, with linear factors divided out of the rest. -/
def completeFactors (coefficients : List Rat) : Factors :=
  let basic := basicFactors coefficients
  let peeled := peelLinear peelLimit basic.rest
  ⟨basic.front ++ peeled.front, peeled.rest⟩

/-- The factors of a polynomial as a list, the rest last. A polynomial that was not split keeps the
name of its variable; the factors of any other one are in `x` if it has none. -/
def Factors.pieces (f : Factors) (d : Dense) : List Dense :=
  match f.front with
  | [] => [d]
  | front =>
    let symbol := if d.symbol = "" then "x" else d.symbol
    (front ++ [f.rest]).map fun coefficients => ⟨coefficients, symbol⟩

/-- The complete factors of a polynomial that is not zero. -/
def completePieces (d : Dense) : List Dense :=
  (completeFactors d.coefficients).pieces d

/-- Whether there are two terms or more. -/
def hasSeveralTerms (coefficients : List Rat) : Bool :=
  1 < (coefficients.filter (· ≠ 0)).length

/-- The factors for display: quadratics that were left over are factored once more. -/
def displayPieces (d : Dense) : List Dense :=
  (completePieces d).flatMap fun piece =>
    if piece.coefficients.length = 3 && hasSeveralTerms piece.coefficients then completePieces piece
    else [piece]

/-- The text of a factor, in parentheses if it has several terms. -/
def factorText (d : Dense) : String :=
  if d.poly.isMonomial then d.poly.text else "(" ++ d.poly.text ++ ")"

/-- **The text of a product**: all constants multiplied into one, which is not written if it is `1`,
and then the other factors. -/
def productText (pieces : List Dense) : String :=
  let constant := (pieces.filter (·.coefficients.length ≤ 1)).foldl
    (fun product d => product * d.coefficients.head?.getD 0) 1
  match pieces.filter (1 < ·.coefficients.length) with
  | [] => Rational.text constant
  | [piece] =>
    if constant = 1 then piece.poly.text
    else Rational.text constant ++ " * " ++ piece.factorText
  | several =>
    " * ".intercalate
      ((if constant = 1 then [] else [Rational.text constant]) ++ several.map (·.factorText))

end Dense

namespace Poly

/-- The polynomials of some factors. The zero polynomial has itself as its only factor. -/
def factorWith (factors : List Rat → Dense.Factors) (p : Poly) : Except Error (List Poly) :=
  p.dense.map fun coefficients =>
    if coefficients = [] then [p]
    else ((factors coefficients).pieces ⟨coefficients, p.symbol⟩).map (·.poly)

/-- **Basic factoring** of a polynomial with rational coefficients and natural powers. -/
def factorBasic (p : Poly) : Except Error (List Poly) :=
  p.factorWith Dense.basicFactors

/-- **Complete factoring** of a polynomial with rational coefficients and natural powers. -/
def factorCompletely (p : Poly) : Except Error (List Poly) :=
  p.factorWith Dense.completeFactors

/-- **The text of a polynomial in factors**, `(x - 1) * (x + 1)`. -/
def factoredText (p : Poly) : Except Error String :=
  if p.isZero then .ok "0"
  else
    p.dense.map fun coefficients => Dense.productText (Dense.displayPieces ⟨coefficients, p.symbol⟩)

end Poly

end ExactAlgebra
