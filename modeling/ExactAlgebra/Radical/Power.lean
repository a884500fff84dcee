import ExactAlgebra.Radical.Basic

/-!
# Rational powers of rationals

`b ^ (p/q)` is the `q`-th root of `b ^ p`. It is a rational for `q = 1`, a radical for `q = 2`, and
for a larger `q` it can be represented only if the root happens to be rational, as in `8 ^ (1/3) =
2`.

## Main definitions

* `integerRoot?` — the exact root of a natural number, by bisection;
* `rationalPower` — the exact power, or the reason why there is none.
-/

namespace ExactAlgebra.Radical

/-- The number between `lo` and `hi` whose power `degree` is `n`, by bisection. -/
def rootBetween (n degree lo hi : Nat) : Option Nat :=
  if 0 < lo ∧ lo ≤ hi then
    let mid := (lo + hi) / 2
    let power := Nat.pow mid degree
    if power = n then some mid
    else if power < n then rootBetween n degree (mid + 1) hi
    else rootBetween n degree lo (mid - 1)
  else none
termination_by hi + 1 - lo

/-- **The exact integer root**: the number whose power `degree` is `n`. A number with no more than
`degree` binary digits is below `2 ^ degree`; otherwise the search goes up to a power of two that is
surely too large. -/
def integerRoot? (n degree : Nat) : Option Nat :=
  if n < 2 then some n
  else if n.log2 < degree then none
  else rootBetween n degree 1 (Nat.pow 2 ((n.log2 + 1) / degree + 1))

/-- **The exact power `base ^ exponent`.** Zero has positive powers only; an even root of a negative
number is not real; and a root of degree three or more has to be rational. -/
def rationalPower (base exponent : Rat) : Except Error Radical :=
  if base = 0 then
    if exponent ≤ 0 then .error .nonPositivePowerOfZero else .ok (ofRat 0)
  else
    let power := Rational.intPower base exponent.num
    let degree := exponent.den
    if degree = 1 then .ok (ofRat power)
    else if degree = 2 then sqrt power
    else if power < 0 ∧ degree % 2 = 0 then .error (.powerNotReal base exponent)
    else
      match integerRoot? power.num.natAbs degree, integerRoot? power.den degree with
      | some n, some d =>
        let root := (n : Rat) / (d : Rat)
        .ok (ofRat (if power < 0 then -root else root))
      | _, _ => .error (.powerNotExact base exponent)

end ExactAlgebra.Radical
