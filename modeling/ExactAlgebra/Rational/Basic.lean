import ExactAlgebra.Error

/-!
# Rational arithmetic with checked input

The rationals of the library are the core type `Rat`: lowest terms, positive denominator. This
module adds what stands between a person and that type: reading a number, quotients that refuse
zero, powers, exact square roots, and the content of a list of coefficients.

## Main definitions

* `parse` — the rational a text denotes;
* `quotient`, `divide` — `n / d`, as a number to be built and as an operation on numbers;
* `natPower`, `intPower` — powers, with exponents of any size for zero and the units;
* `sqrt?` — the rational square root, if there is one;
* `content` — the gcd of the numerators over the lcm of the denominators.
-/

namespace ExactAlgebra.Rational

/-! ## Numbers from text and from parts -/

/-- **Reads a number.** Spaces may stand anywhere, even between digits; other blanks only at the
ends. -/
def parse (s : String) : Except Error Rat :=
  let cs := s.toList.filter (· ≠ ' ')
  if cs = [] then .error .emptyNumber
  else
    match Notation.ofChars? cs with
    | none => .error (.notRational s)
    | some n =>
      match n.value? with
      | none => .error (.zeroDenominatorIn s)
      | some q => .ok q

/-- The number with numerator `n` and denominator `d`. -/
def quotient (n d : Rat) : Except Error Rat :=
  if d = 0 then .error .zeroDenominator else .ok (n / d)

/-- The quotient of two numbers. -/
def divide (a b : Rat) : Except Error Rat :=
  if b = 0 then .error .divisionByZero else .ok (a / b)

/-- Whether the number is whole. -/
def isInteger (q : Rat) : Bool :=
  q.den = 1

/-- **A number as a factor of a product**: a negative number or a fraction stands in parentheses. -/
def factorText (q : Rat) : String :=
  if q < 0 ∨ q.den ≠ 1 then "(" ++ text q ++ ")" else text q

/-! ## Powers -/

/-- **A natural power.** Zero, one and minus one are not multiplied out, so that their exponent may
have any size. -/
def natPower (q : Rat) (n : Nat) : Rat :=
  if n = 0 then 1
  else if q = 0 ∨ q = 1 ∨ q = -1 then (if n % 2 = 0 then q * q else q)
  else q ^ n

/-- The powers of a number whose cube is itself take turns. -/
theorem pow_eq_of_cube {q : Rat} (cube : q * q * q = q) (n : Nat) :
    q ^ (n + 1) = if (n + 1) % 2 = 0 then q * q else q := by
  induction n with
  | zero => simp
  | succ n ih =>
    rw [Rat.pow_succ, ih]
    by_cases even : (n + 1) % 2 = 0
    · rw [if_pos even, if_neg (by omega), cube]
    · rw [if_neg even, if_pos (by omega)]

/-- A natural power is what multiplying out gives. -/
theorem natPower_eq (q : Rat) (n : Nat) : natPower q n = q ^ n := by
  unfold natPower
  cases n with
  | zero => simp
  | succ n =>
    rw [if_neg (by omega)]
    by_cases unit : q = 0 ∨ q = 1 ∨ q = -1
    · have cube : q * q * q = q := by
        obtain rfl | rfl | rfl := unit <;> decide +kernel
      rw [if_pos unit, pow_eq_of_cube cube]
    · rw [if_neg unit]

/-- An integer power; that of a number other than zero has an inverse. -/
def intPower (q : Rat) (n : Int) : Rat :=
  if 0 ≤ n then natPower q n.natAbs else (natPower q n.natAbs)⁻¹

/-! ## Square roots -/

/-- Whether a natural number is a perfect square. -/
def isSquare (n : Nat) : Bool :=
  n.sqrt * n.sqrt = n

/-- **The exact square root**: of a rational in lowest terms it exists iff numerator and denominator
are perfect squares. `none` for a negative number. -/
def sqrt? (q : Rat) : Option Rat :=
  if q < 0 then none
  else
    let n := q.num.natAbs
    if isSquare n && isSquare q.den then some ((n.sqrt : Rat) / (q.den.sqrt : Rat)) else none

/-! ## Content -/

/-- One more value for the running gcd of numerators and lcm of denominators. Zeros say nothing. -/
def contentStep (state : Nat × Nat) (q : Rat) : Nat × Nat :=
  if q = 0 then state else (Nat.gcd state.1 q.num.natAbs, Nat.lcm state.2 q.den)

/-- **The content of a list of rationals**: every value divided by it is an integer, and those
integers have no common divisor. It is `0` iff all values are. -/
def content (values : List Rat) : Rat :=
  let (g, l) := values.foldl contentStep (0, 1)
  if g = 0 then 0 else (g : Rat) / (l : Rat)

example : content [] = 0 ∧ content [0, 0] = 0 := by decide +kernel
example : content [3/2, -9/4, 0] = 3/4 := by decide +kernel

end ExactAlgebra.Rational
