import ExactAlgebra.Text.Numeral
import ExactAlgebra.Text.Printable

/-!
# Quoted texts

Messages that show a text as a value write it in quotes: single ones, or double ones if it holds a
single quote and no double one. The quote and the backslash are escaped, line ends and tabs have
letters, and other unprintable characters are written by their code points.

## Main definitions

* `quoted` — a text in quotes;
* `hexDigits` — a number in hexadecimal digits.
-/

namespace ExactAlgebra.Text

/-- The hexadecimal digit with the given value below sixteen. -/
def hexDigit (d : Nat) : Char :=
  if d < 10 then digitChar d else Char.ofNat (87 + d)

/-- The last `width` hexadecimal digits of a number. -/
def hexDigits : Nat → Nat → List Char
  | 0, _ => []
  | width + 1, n => hexDigits width (n / 16) ++ [hexDigit (n % 16)]

/-- A character between quotes of the given kind. -/
def quotedChar (quote c : Char) : List Char :=
  if c = quote ∨ c = '\\' then ['\\', c]
  else if c = '\n' then ['\\', 'n']
  else if c = '\r' then ['\\', 'r']
  else if c = '\t' then ['\\', 't']
  else if isPrintable c then [c]
  else if c.toNat < 256 then '\\' :: 'x' :: hexDigits 2 c.toNat
  else if c.toNat < 65536 then '\\' :: 'u' :: hexDigits 4 c.toNat
  else '\\' :: 'U' :: hexDigits 8 c.toNat

/-- The characters of a text in quotes. -/
def quotedChars (cs : List Char) : List Char :=
  let quote := if '\'' ∈ cs ∧ '"' ∉ cs then '"' else '\''
  quote :: (cs.flatMap (quotedChar quote) ++ [quote])

/-- **A text in quotes.** -/
def quoted (text : String) : String :=
  String.ofList (quotedChars text.toList)

example : quoted "it's" = "\"it's\"" := by decide +kernel
example : quoted "a\n\u00ad" = "'a\\n\\xad'" := by decide +kernel

end ExactAlgebra.Text
