import ExactAlgebra.Poly.Basic

/-!
# Polynomials as text

Terms are written from the highest power down, joined by ` + ` and ` - `: `3x^2 - 1/2*x + sqrt(2)`.
A whole number stands directly in front of the variable; any other coefficient is followed by a
star. Coefficients of one are not written. A power that is no natural number stands in parentheses.

## Main definitions

* `powerText` — the exponent with its `^`;
* `Term.text`, `Monomial.text`, `Poly.text` — the text of a term, a monomial and a polynomial.
-/

namespace ExactAlgebra

/-- The exponent of a power, `^2` or `^(-1/2)`. -/
def powerText (e : Rat) : String :=
  if Poly.isNaturalPower e then "^" ++ Rational.text e else "^(" ++ Rational.text e ++ ")"

/-- The variable with its exponent; the first power is not written. -/
def variableText (symbol : String) (e : Rat) : String :=
  if e = 1 then symbol else symbol ++ powerText e

/-- **The text of a term** in the given variable. -/
def Term.text (t : Term) (symbol : String) : String :=
  let c := t.coefficient
  if c.isZero then "0"
  else if t.power = 0 then c.text
  else
    let x := variableText symbol t.power
    if c = .ofRat 1 then x
    else if c = .ofRat (-1) then "-" ++ x
    else if c.isRational && c.coefficient.den = 1 then c.text ++ x
    else c.text ++ "*" ++ x

/-- The text of a monomial. -/
def Monomial.text (m : Monomial) : String :=
  m.term.text m.symbol

namespace Poly

/-- The text of a term that follows others: its sign as an operator, then the term without the
sign. -/
def followingText (symbol : String) (t : Term) : String :=
  if t.coefficient.isNegative then
    " - " ++ Term.text ⟨t.coefficient.neg, t.power⟩ symbol
  else " + " ++ t.text symbol

/-- **The text of a polynomial.** -/
def text (p : Poly) : String :=
  match p.terms with
  | [] => "0"
  | t :: rest => t.text p.symbol ++ String.join (rest.map (followingText p.symbol))

/-- The text of a polynomial as a constructor call, for a log or a test report. -/
def constructorText (p : Poly) : String :=
  "Polynomial('" ++ p.text ++ "')"

/-- The value of a constant. -/
def constantValue (p : Poly) : Except Error Radical :=
  if p.isConstant then .ok p.leadingCoefficient else .error (.notConstant p.text)

end Poly

end ExactAlgebra
