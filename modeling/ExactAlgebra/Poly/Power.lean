import ExactAlgebra.Poly.Arithmetic

/-!
# Rational powers of polynomials

What `^` means depends on the base. A constant is raised as a number; a single term raises its
coefficient and multiplies its power; a sum of several terms can only be multiplied by itself.

## Main definitions

* `raise` — the power of a polynomial with any rational exponent, where it is a polynomial.
-/

namespace ExactAlgebra.Poly

/-- The power of the coefficient of a single term that contains the variable. -/
def raiseCoefficient (c : Radical) (e : Rat) : Except Error Radical :=
  if c = .ofRat 1 then .ok c
  else if e.den = 1 then c.intPow e.num
  else if c.isRational then Radical.rationalPower c.coefficient e
  else .error (.fractionalCoefficientPower c.text e)

/-- The power of a constant. -/
def raiseConstant (c : Radical) (e : Rat) : Except Error Radical :=
  if c.isRational then Radical.rationalPower c.coefficient e else c.pow e

/-- **The power `p ^ e`.** -/
def raise (p : Poly) (e : Rat) : Except Error Poly :=
  match p.terms with
  | [] => if e ≤ 0 then .error .nonPositivePowerOfZero else .ok p
  | [t] =>
    if t.power = 0 then (raiseConstant t.coefficient e).map (constant · p.symbol)
    else (raiseCoefficient t.coefficient e).map fun c => ofTerm ⟨c, t.power * e⟩ p.symbol
  | _ =>
    if e.den ≠ 1 ∨ e < 0 then .error (.severalTermsPower p.text e) else p.natPow e.num.natAbs

end ExactAlgebra.Poly
