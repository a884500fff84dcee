import ExactAlgebra.Text.Numeral

/-!
# Rational numbers as text

A rational is written in lowest terms, `3` or `-3/4`. The reader takes that notation and also
decimals and powers of ten, all exactly: a decimal denotes the rational it spells, never a rounded
value.

## Main definitions

* `text` — the canonical notation;
* `Notation` — the parts of a number as it is spelled;
* `Notation.ofChars?` — reads those parts, `Notation.value?` gives the rational they denote.
-/

namespace ExactAlgebra.Rational

open ExactAlgebra.Text

/-! ## Writing -/

/-- The characters of a rational: the numerator, and the denominator unless it is one. -/
def chars (q : Rat) : List Char :=
  if q.den = 1 then intChars q.num else intChars q.num ++ '/' :: natChars q.den

/-- **The canonical text of a rational**, `3` or `-3/4`. -/
def text (q : Rat) : String :=
  String.ofList (chars q)

/-! ## Reading -/

/-- What may follow the leading digits of a number: a denominator, or decimals and a power of
ten. -/
inductive Tail where
  | fraction (denominator : List Nat)
  | decimal (places : List Nat) (exponent : Int)

/-- **A number as it is spelled** — a sign, the leading digits (none in `.5`), and what follows. -/
structure Notation where
  negative : Bool
  digits : List Nat
  tail : Tail

/-- A power of ten, `e` and a signed digit group; `0` if there is none. `none` for an `e` without
digits. -/
def exponent : List Char → Option (Int × List Char)
  | [] => some (0, [])
  | c :: rest =>
    if c = 'e' ∨ c = 'E' then
      let (negative, body) := sign rest
      (digitGroup body).map fun (ds, after) => (signedInt negative ds, after)
    else some (0, c :: rest)

/-- The places after a decimal point. A point may stand without any. -/
def places (cs : List Char) : List Nat × List Char :=
  (digitGroup cs).getD ([], cs)

/-- What follows the leading digits. -/
def tailOf : List Char → Option (Tail × List Char)
  | '/' :: rest => (digitGroup rest).map fun (ds, after) => (.fraction ds, after)
  | '.' :: rest =>
    let (ds, after) := places rest
    (exponent after).map fun (e, after) => (.decimal ds e, after)
  | cs => (exponent cs).map fun (e, after) => (.decimal [] e, after)

/-- The leading digits: a digit group, or nothing in front of a point that digits follow. -/
def leading (cs : List Char) : Option (List Nat × List Char) :=
  match digitGroup cs, cs with
  | some group, _ => some group
  | none, '.' :: rest => (digitGroup rest).map fun _ => ([], cs)
  | none, _ => none

/-- **The parts of a number**: blanks around it are skipped, anything else that is left over makes
the text no number. -/
def Notation.ofChars? (cs : List Char) : Option Notation := do
  let (negative, body) := sign (trimStart cs)
  let (digits, after) ← leading body
  let (tail, rest) ← tailOf after
  if trimStart rest = [] then some ⟨negative, digits, tail⟩ else none

/-- Ten to a signed power. -/
def tenPow (e : Int) : Rat :=
  (10 : Rat) ^ e

/-- **The rational that a spelling denotes**; `none` for a denominator of zero. -/
def Notation.value? (n : Notation) : Option Rat :=
  let whole := signedInt n.negative n.digits
  match n.tail with
  | .fraction denominator =>
    if ofDigits denominator = 0 then none else some ((whole : Rat) / (ofDigits denominator : Rat))
  | .decimal places e =>
    let scaled := signedInt n.negative (n.digits ++ places)
    some ((scaled : Rat) * tenPow (e - places.length))

end ExactAlgebra.Rational
