import ExactAlgebra.Text.Blank
import ExactAlgebra.Text.Digit

/-!
# Numerals

How whole numbers are written and read. Writing is plain ASCII decimal. Reading is more liberal:
digits of any script, single underscores between digits, a sign, and blanks around it all, though no
information separators.

## Main definitions

* `natChars`, `natText`, `intText` — the decimal notation of a number;
* `digitGroup` — the longest numeral at the head of a text, with what follows it;
* `readInt?` — the integer that a whole text denotes.
-/

namespace ExactAlgebra.Text

/-! ## Writing -/

/-- The digits of `n`, in front of what has been written already. -/
def natCharsInto (n : Nat) (written : List Char) : List Char :=
  if n < 10 then digitChar n :: written
  else natCharsInto (n / 10) (digitChar (n % 10) :: written)
termination_by n

/-- The decimal digits of a natural number, without leading zeros. -/
def natChars (n : Nat) : List Char :=
  natCharsInto n []

/-- **The decimal text of a natural number.** -/
def natText (n : Nat) : String :=
  String.ofList (natChars n)

/-- The decimal digits of an integer, after a minus sign if it is negative. -/
def intChars (n : Int) : List Char :=
  if n < 0 then '-' :: natChars n.natAbs else natChars n.natAbs

/-- **The decimal text of an integer.** -/
def intText (n : Int) : String :=
  String.ofList (intChars n)

/-! ## Reading -/

/-- The digits that continue a numeral: a digit, or an underscore right before a digit. -/
def moreDigits : List Char → List Nat × List Char
  | [] => ([], [])
  | '_' :: c :: rest =>
    match digitValue? c with
    | some d => let (ds, after) := moreDigits rest; (d :: ds, after)
    | none => ([], '_' :: c :: rest)
  | c :: rest =>
    match digitValue? c with
    | some d => let (ds, after) := moreDigits rest; (d :: ds, after)
    | none => ([], c :: rest)

/-- **A digit group** — a digit and all that continue it, with what follows. Underscores are only
allowed singly and between digits, so none is left over at an end of the group. -/
def digitGroup : List Char → Option (List Nat × List Char)
  | [] => none
  | c :: rest =>
    (digitValue? c).map fun d => let (ds, after) := moreDigits rest; (d :: ds, after)

/-- A sign, if there is one: whether it was a minus, and what follows it. -/
def sign : List Char → Bool × List Char
  | '-' :: rest => (true, rest)
  | '+' :: rest => (false, rest)
  | cs => (false, cs)

/-- The integer with the given sign and digits. -/
def signedInt (negative : Bool) (digits : List Nat) : Int :=
  if negative then -(ofDigits digits : Int) else (ofDigits digits : Int)

/-- Whether a character may stand around an integer. -/
def surroundsInt (c : Char) : Bool :=
  isBlank c && ! isSeparator c

/-- **The integer that a text denotes**: blanks around it, a sign, and one digit group. `none` if
anything else is in the text. -/
def readInt? (text : String) : Option Int :=
  let (negative, body) := sign (stripped surroundsInt text.toList)
  match digitGroup body with
  | some (digits, []) => some (signedInt negative digits)
  | _ => none

example : readInt? " -1_000 " = some (-1000) := by decide +kernel
example : readInt? "\u3000 7\u0085" = some 7 ∧ readInt? "\x1c7" = none := by decide +kernel
example : readInt? "1__0" = none ∧ readInt? "- 1" = none ∧ readInt? "" = none := by decide +kernel

end ExactAlgebra.Text
