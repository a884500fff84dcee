import ExactAlgebra.Rational.Text

/-!
# Binary floating-point numbers

The library computes with rationals only, but a stored file or a request may hold a number with a
decimal point, and such a number denotes a double: a binary floating-point number with 53
significant bits. Here a double is its exact rational value, and reading one is rounding a decimal
to the nearest double, with ties to the even neighbour.

## Main definitions

* `Binary64` — a double: a signed magnitude, an infinity, or no number;
* `nearest?` — the double nearest to a rational;
* `Binary64.ofDecimal` — the double that a decimal denotes;
* `Binary64.truncate` — its whole part.
-/

namespace ExactAlgebra

open ExactAlgebra.Text
open ExactAlgebra.Rational (tenPow)

/-- **A double.** The magnitude is the exact value without its sign; zero has two signs. -/
inductive Binary64 where
  | nan
  | infinite (negative : Bool)
  | finite (negative : Bool) (magnitude : Rat)
  deriving DecidableEq

namespace Binary64

/-! ## Rounding -/

/-- Two to a signed power. -/
def twoPow (e : Int) : Rat :=
  (2 : Rat) ^ e

/-- The exponent `e` with `2 ^ e ≤ q < 2 ^ (e + 1)`, for a positive `q`. The lengths of numerator
and denominator determine it up to one. -/
def binaryExponent (q : Rat) : Int :=
  let e := (q.num.natAbs.log2 : Int) - (q.den.log2 : Int)
  if q < twoPow e then e - 1 else e

/-- The natural number nearest to a rational that is not negative; of two equally near ones the even
one. -/
def roundEven (q : Rat) : Nat :=
  let n := q.floor.toNat
  let excess := q - (n : Rat)
  if excess < 1 / 2 then n
  else if 1 / 2 < excess then n + 1
  else if n % 2 = 0 then n else n + 1

/-- The distance between neighbouring doubles at a positive rational. Below `2 ^ (-1022)` it no
longer shrinks. -/
def spacing (q : Rat) : Rat :=
  let e := binaryExponent q
  twoPow ((if e < -1022 then -1022 else e) - 52)

/-- **The double nearest to a rational that is not negative**; `none` if it is too large for any. -/
def nearest? (q : Rat) : Option Rat :=
  if q = 0 then some 0
  else
    let rounded := (roundEven (q / spacing q) : Rat) * spacing q
    if rounded < twoPow 1024 then some rounded else none

/-- **The double that a decimal denotes**, the digits of `n` times a power of ten. Exponents far
beyond the range are settled by the number of digits. -/
def ofDecimal (negative : Bool) (n : Nat) (exponent : Int) : Binary64 :=
  let position := exponent + ((natChars n).length : Int)
  if n = 0 ∨ position < -400 then .finite negative 0
  else if 400 < position then .infinite negative
  else
    match nearest? ((n : Rat) * tenPow exponent) with
    | some magnitude => .finite negative magnitude
    | none => .infinite negative

/-! ## Inspection -/

/-- Whether the number is zero, of either sign. -/
def isZero : Binary64 → Bool
  | finite _ magnitude => magnitude = 0
  | _ => false

/-- The value of a finite double. -/
def value? : Binary64 → Option Rat
  | finite negative magnitude => some (if negative then -magnitude else magnitude)
  | _ => none

/-- The whole part of a signed magnitude, rounded toward zero. -/
def truncate (negative : Bool) (magnitude : Rat) : Int :=
  if negative then -magnitude.floor else magnitude.floor

end Binary64

end ExactAlgebra
