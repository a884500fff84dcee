import ExactAlgebra.Decimal.Binary64

/-!
# The shortest decimal of a double

A double is written with the fewest digits that read back as the same double; among the decimals of
that length the nearest one is taken. The digits are found by trying every length: on the grid of
decimals with `n` digits only the two neighbours of the value can be nearest.

## Main definitions

* `shortest` — the digits, and the position of the decimal point;
* `Layout` — where positional notation ends;
* `Binary64.text` — the text of a double.
-/

namespace ExactAlgebra.Binary64

open ExactAlgebra.Text
open ExactAlgebra.Rational (tenPow)

/-! ## Digits -/

/-- The position `k` with `10 ^ (k - 1) ≤ q < 10 ^ k`, for a positive `q`. The number of digits of
numerator and denominator determine it up to one. -/
def decimalPosition (q : Rat) : Int :=
  let k := ((natChars q.num.natAbs).length : Int) - ((natChars q.den).length : Int)
  if q < tenPow k then k else k + 1

/-- Whether a decimal reads back as the double with magnitude `q`. -/
def readsBack (q : Rat) (digits : Nat) (unit : Rat) : Bool :=
  nearest? ((digits : Rat) * unit) = some q

/-- The multiple of `unit` that reads back as `q` and is nearest to it, if one of the two neighbours
of `q` does. -/
def onGrid? (q unit : Rat) : Option Nat :=
  let below := (q / unit).floor.toNat
  let closest := roundEven (q / unit)
  let other := if closest = below then below + 1 else below
  if readsBack q closest unit then some closest
  else if readsBack q other unit then some other
  else none

/-- The digits of a decimal without the zeros at its end. -/
def significant (n : Nat) : List Char :=
  ((natChars n).reverse.dropWhile (· = '0')).reverse

/-- **The shortest digits that read back**, and the position of the decimal point in front of them:
the value is `0.digits · 10 ^ position`. Seventeen digits are enough for every double. -/
def shortest (q : Rat) : List Char × Int :=
  let position := decimalPosition q
  let found := (List.range 17).findSome? fun n : Nat =>
    let places := position - ((n : Int) + 1)
    (onGrid? q (tenPow places)).map fun digits => (digits, places)
  match found with
  | some (digits, places) => (significant digits, places + ((natChars digits).length : Int))
  | none => (['0'], 1)

/-! ## Layout -/

/-- **Where positional notation ends**: the position of the decimal point lies above `above` and not
beyond `upTo`. An exponent has at least `exponentDigits` digits. -/
structure Layout where
  above : Int
  upTo : Int
  exponentDigits : Nat

/-- Sixteen digits in front of the point at most, and at most three zeros behind it; exponents have
two digits. -/
def layout : Layout where
  above := -4
  upTo := 16
  exponentDigits := 2

/-- Zeros. -/
def zeros (n : Nat) : List Char :=
  List.replicate n '0'

/-- Digits in positional notation, always with a decimal point and a digit on either side of it. -/
def positional (digits : List Char) (position : Int) : List Char :=
  if position ≤ 0 then '0' :: '.' :: (zeros (-position).toNat ++ digits)
  else
    let whole := digits.take position.toNat
    let places := digits.drop position.toNat
    whole ++ zeros (position.toNat - whole.length)
      ++ '.' :: (if places = [] then ['0'] else places)

/-- Digits with an exponent. -/
def scientific (style : Layout) (digits : List Char) (position : Int) : List Char :=
  let exponent := position - 1
  let places := digits.drop 1
  let power := natChars exponent.natAbs
  digits.take 1 ++ (if places = [] then [] else '.' :: places)
    ++ 'e' :: (if exponent < 0 then '-' else '+')
    :: (zeros (style.exponentDigits - power.length) ++ power)

/-- The text of a magnitude. -/
def magnitudeChars (style : Layout) (q : Rat) : List Char :=
  if q = 0 then ['0', '.', '0']
  else
    let (digits, position) := shortest q
    if style.above < position ∧ position ≤ style.upTo then positional digits position
    else scientific style digits position

/-- The text of a double, with the given words for the values that have no digits. -/
def textWith (nanText infinityText : String) : Binary64 → String
  | nan => nanText
  | infinite negative => if negative then "-" ++ infinityText else infinityText
  | finite negative q =>
    String.ofList (if negative then '-' :: magnitudeChars layout q else magnitudeChars layout q)

/-- **The text of a double.** -/
def text (x : Binary64) : String :=
  x.textWith "nan" "inf"

example : (ofDecimal false 1 (-1)).text = "0.1" := by decide +kernel
example : (ofDecimal true 1 16).text = "-1e+16" := by decide +kernel
example : (ofDecimal false 49 (-325)).text = "5e-324" := by decide +kernel

end ExactAlgebra.Binary64
