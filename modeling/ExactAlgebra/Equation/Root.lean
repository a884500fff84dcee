import ExactAlgebra.Factoring.Factor

/-!
# Roots of a polynomial

A root is a rational, or a rational plus a square-root radical, or it cannot be written that way and
a marker stands in its place. All roots of a polynomial are found factor by factor: a factor `x^n`
gives zero `n` times, a linear factor its rational root, a quadratic factor both roots of the
quadratic formula if they are real, and any other factor as many markers as its degree.

## Main definitions

* `Root`, `Root.text` — a root, and its notation;
* `Dense.realRoots` — the quadratic formula;
* `Poly.allRoots` — the roots of a polynomial, as many as its degree.
-/

namespace ExactAlgebra

/-- **A root of a polynomial.** -/
inductive Root where
  | rational (value : Rat)
  /-- A rational and a radical that is not rational, added. -/
  | surd (base : Rat) (offset : Radical)
  /-- A root without a notation of either kind. -/
  | unsolvable
  deriving DecidableEq

namespace Root

/-- **The text of a root**, `3/2`, `sqrt(2)`, `1 - 2*sqrt(3)`, or `unsolvable`. -/
def text : Root → String
  | rational q => Rational.text q
  | surd base offset =>
    if base = 0 then offset.text
    else if offset.isNegative then Rational.text base ++ " - " ++ offset.neg.text
    else Rational.text base ++ " + " ++ offset.text
  | unsolvable => "unsolvable"

/-- The value of a rational root. -/
def rational? : Root → Option Rat
  | rational q => some q
  | _ => none

end Root

/-- A radical multiplied by a rational. -/
def Radical.scale (k : Rat) (a : Radical) : Radical :=
  .ofParts (k * a.coefficient) a.radicand a.squareFree

namespace Dense

/-- The discriminant of `a·x² + b·x + c`. -/
def discriminant (a b c : Rat) : Rat :=
  b * b - 4 * a * c

/-- **The real roots of `a·x² + b·x + c`**, the one with the positive square root first; `none` if
there are none. A discriminant that is too large to be simplified is an error. -/
def realRoots (a b c : Rat) : Except Error (Option (Root × Root)) :=
  if discriminant a b c < 0 then .ok none
  else
    match quadraticRoots? a b c with
    | some (r, s) => .ok (some (.rational r, .rational s))
    | none =>
      (Radical.sqrt (discriminant a b c)).map fun root =>
        let offset := root.scale (1 / (2 * a))
        some (.surd (-b / (2 * a)) offset, .surd (-b / (2 * a)) offset.neg)

/-- The roots of one factor, as many as its degree. -/
def factorRoots (coefficients : List Rat) : List Root :=
  if hasSeveralTerms coefficients then
    match coefficients with
    | [a, b] => [.rational (-b / a)]
    | [a, b, c] =>
      match realRoots a b c with
      | .ok (some (r, s)) => [r, s]
      | _ => [.unsolvable, .unsolvable]
    | _ => List.replicate (coefficients.length - 1) .unsolvable
  else List.replicate (coefficients.length - 1) (.rational 0)

/-- **The roots of a polynomial that is no constant**, factor by factor. -/
def allRoots (coefficients : List Rat) : List Root :=
  let factors := completeFactors coefficients
  (factors.front ++ [factors.rest]).flatMap factorRoots

end Dense

namespace Poly

/-- **All roots of a polynomial.** A constant has none. If the polynomial cannot be factored at all,
there are as many markers as the whole part of its degree, one at the least. -/
def allRoots (p : Poly) : List Root :=
  match p.degree? with
  | none => []
  | some d =>
    if d ≤ 0 then []
    else
      match p.dense with
      | .ok coefficients => Dense.allRoots coefficients
      | .error _ => List.replicate (max d.floor.toNat 1) .unsolvable

/-- Refuses a polynomial with more roots than can be listed. -/
def checkRootCount (p : Poly) : Except Error Unit := do
  p.checkLength
  if p.coefficientCount = 0 then Error.checkLength ((p.degree?.map (·.floor.toNat)).getD 0)

end Poly

end ExactAlgebra
