import ExactAlgebra.Error

/-!
# Divisors by trial division

Divisors are found by trying every number up to the square root. Beyond `factorLimit` that would
take too long, and the library says so instead of starting.

## Main definitions

* `factorLimit` — the largest number that is factored, `10¹²`;
* `checkFactorable` — refuses a larger one;
* `divisors` — the positive divisors of an integer, in ascending order.
-/

namespace ExactAlgebra.Rational

/-- **The largest number that is factored by trial division**, which tries a million divisors at
most. -/
def factorLimit : Nat :=
  1000000000000

/-- Refuses a number above `factorLimit`. -/
def checkFactorable (n : Nat) : Except Error Unit :=
  if factorLimit < n then .error (.tooLargeToFactor n) else .ok ()

/-- The divisors of `n` from `i` on, in pairs `i, n / i` with `i * i ≤ n`: `small` and `large` hold
the two halves of the pairs found so far, `small` in descending and `large` in ascending order. -/
def divisorsFrom (n i : Nat) (small large : List Nat) : List Nat :=
  if 0 < i ∧ i * i ≤ n then
    if n % i = 0 then
      divisorsFrom n (i + 1) (i :: small) (if i = n / i then large else n / i :: large)
    else divisorsFrom n (i + 1) small large
  else small.reverse ++ large
termination_by n + 1 - i
decreasing_by
  all_goals
    have : i * 1 ≤ i * i := Nat.mul_le_mul_left i (by omega)
    omega

/-- **The positive divisors of an integer other than zero**, in ascending order. -/
def divisors (n : Int) : Except Error (List Nat) := do
  if n = 0 then throw .divisorsOfZero
  checkFactorable n.natAbs
  return divisorsFrom n.natAbs 1 [] []

example : (divisors (-12)).toOption = some [1, 2, 3, 4, 6, 12] := by decide +kernel

end ExactAlgebra.Rational
