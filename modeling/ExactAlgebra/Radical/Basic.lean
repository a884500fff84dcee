import ExactAlgebra.Radical.SquareFree

/-!
# Square-root radicals

A radical is a number `c·√m` with a rational coefficient and a square-free radicand. That form is
unique: the type demands it, zero is written with radicand one, and so two radicals are equal
exactly when they are the same real number. Sums of unlike radicals are not radicals, and are
refused.

## Main definitions

* `Radical` — the type; `Radical.make c r` is `c·√r` for any rational `r`, in simplest form;
* `Radical.sqrt` — the square root of a rational;
* `neg`, `abs`, `add`, `sub`, `mul`, `div`, `pow` — arithmetic, partial where the result is no
  radical;
* `text` — `3`, `sqrt(2)`, `-1/2*sqrt(3)`.
-/

namespace ExactAlgebra

open ExactAlgebra.Text

/-- **A square-root radical**, the number `coefficient · √radicand`. -/
structure Radical where
  coefficient : Rat
  radicand : Nat
  /-- All squares are in the coefficient. -/
  squareFree : Radical.SquareFree radicand
  /-- Zero has one form only. -/
  radicand_of_zero : coefficient = 0 → radicand = 1
  deriving DecidableEq

namespace Radical

/-! ## Construction -/

/-- A rational as a radical. -/
def ofRat (q : Rat) : Radical where
  coefficient := q
  radicand := 1
  squareFree := squareFree_one
  radicand_of_zero := fun _ => rfl

/-- The radical with a coefficient and a radicand that is already square-free. -/
def ofParts (c : Rat) (m : Nat) (h : SquareFree m) : Radical :=
  if zero : c = 0 then ofRat 0 else ⟨c, m, h, fun z => absurd z zero⟩

/-- **The number `c·√r` in simplest form.** With `r = p/q` in lowest terms it is `(c·k/q)·√m`, where
`p·q = k²·m` and `m` is square-free. -/
def make (c r : Rat) : Except Error Radical :=
  if r < 0 then .error (.negativeRadicand r)
  else if zero : c = 0 ∨ r = 0 then .ok (ofRat 0)
  else
    match split : splitSquare (r.num.natAbs * r.den) with
    | .error e => .error e
    | .ok (k, m) =>
      have pos : 0 < r.num.natAbs * r.den :=
        Nat.mul_pos (Int.natAbs_pos.2 fun h => zero (.inr (Rat.num_eq_zero.1 h))) r.den_pos
      .ok (ofParts (c * ((k : Rat) / (r.den : Rat))) m (splitSquare_squareFree pos split))

/-- **The square root of a rational**, in simplest form. -/
def sqrt (q : Rat) : Except Error Radical :=
  make 1 q

/-! ## Inspection -/

/-- Whether the radical is zero. -/
def isZero (a : Radical) : Bool :=
  a.coefficient = 0

/-- Whether the radical is rational. -/
def isRational (a : Radical) : Bool :=
  a.radicand = 1

/-- Whether the radical is below zero. -/
def isNegative (a : Radical) : Bool :=
  a.coefficient < 0

/-- **The text of a radical.** A coefficient of `1` or `-1` is not written in front of a root. -/
def text (a : Radical) : String :=
  if a.radicand = 1 then Rational.text a.coefficient
  else
    let root := "sqrt(" ++ natText a.radicand ++ ")"
    if a.coefficient = 1 then root
    else if a.coefficient = -1 then "-" ++ root
    else Rational.text a.coefficient ++ "*" ++ root

/-- The text of a radical as a constructor call, for a log or a test report. -/
def constructorText (a : Radical) : String :=
  "SimplifiedRadical(" ++ Rational.text a.coefficient ++ ", " ++ natText a.radicand ++ ")"

/-- The value of a rational radical. -/
def rationalValue (a : Radical) : Except Error Rat :=
  if a.radicand = 1 then .ok a.coefficient else .error (.irrational a.text)

/-! ## Arithmetic -/

/-- The opposite. -/
def neg (a : Radical) : Radical :=
  ofParts (-a.coefficient) a.radicand a.squareFree

/-- The absolute value. -/
def abs (a : Radical) : Radical :=
  ofParts (if a.coefficient < 0 then -a.coefficient else a.coefficient) a.radicand a.squareFree

/-- **The sum of two radicals.** Zero can be added to anything; apart from that the radicands have
to agree. -/
def add (a b : Radical) : Except Error Radical :=
  if b.isZero then .ok a
  else if a.isZero then .ok b
  else if a.radicand = b.radicand then
    .ok (ofParts (a.coefficient + b.coefficient) a.radicand a.squareFree)
  else .error (.unlikeRadicals a.text b.text)

/-- The difference of two radicals. -/
def sub (a b : Radical) : Except Error Radical :=
  add a b.neg

/-- The product: `c√m · d√n = (c·d)·√(m·n)`. -/
def mul (a b : Radical) : Except Error Radical :=
  make (a.coefficient * b.coefficient) ((a.radicand : Rat) * (b.radicand : Rat))

/-- The quotient: `c√m / d√n = c/(d·n) · √(m·n)`. -/
def div (a b : Radical) : Except Error Radical :=
  if b.isZero then .error (.radicalOverZero a.text)
  else
    make (a.coefficient / (b.coefficient * (b.radicand : Rat)))
      ((a.radicand : Rat) * (b.radicand : Rat))

/-- The reciprocal: `1 / c√m = 1/(c·m) · √m`. -/
def inv (a : Radical) : Radical :=
  ofParts (1 / (a.coefficient * (a.radicand : Rat))) a.radicand a.squareFree

/-- A natural power: `(c√m)ⁿ = cⁿ · m^(n/2)`, times `√m` if `n` is odd. -/
def natPow (a : Radical) (n : Nat) : Radical :=
  let c := Rational.natPower a.coefficient n * Rational.natPower (a.radicand : Rat) (n / 2)
  if n % 2 = 1 then ofParts c a.radicand a.squareFree else ofRat c

/-- An integer power; zero has no negative ones. -/
def intPow (a : Radical) (n : Int) : Except Error Radical :=
  if 0 ≤ n then .ok (a.natPow n.natAbs)
  else if a.isZero then .error .negativePowerOfZero
  else .ok (a.inv.natPow n.natAbs)

/-- **A power of a radical.** Only whole exponents keep it a radical. -/
def pow (a : Radical) (e : Rat) : Except Error Radical :=
  if e.den = 1 then a.intPow e.num else .error (.fractionalPower a.text e)

end Radical

end ExactAlgebra
