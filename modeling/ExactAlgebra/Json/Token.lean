import ExactAlgebra.Json.Basic

/-!
# The tokens of JSON

A JSON text is cut into tokens from left to right: brackets, braces, commas, colons, the words
`null`, `true` and `false`, numbers and strings. Between them there may be spaces, tabs and line
ends. The words `NaN`, `Infinity` and `-Infinity` are numbers as well.

## Main definitions

* `Token` — the tokens;
* `tokens?` — the tokens of a text, unless it holds something else.
-/

namespace ExactAlgebra.Json

open ExactAlgebra.Text

/-- **A token.** -/
inductive Token where
  | leftBracket
  | rightBracket
  | leftBrace
  | rightBrace
  | comma
  | colon
  | string (text : String)
  /-- A token that is a value by itself: a number, or one of the three words. -/
  | scalar (value : Json)

/-- A reader of one token: the result, and the text that follows. -/
abbrev Reading (α : Type) :=
  Option (α × List Char)

/-! ## Words -/

/-- The words, with their values. -/
def words : List (List Char × Json) :=
  [("null".toList, .null), ("true".toList, .bool true), ("false".toList, .bool false),
   ("NaN".toList, .float .nan), ("Infinity".toList, .float (.infinite false)),
   ("-Infinity".toList, .float (.infinite true))]

/-- Reads one of the words. -/
def word? (cs : List Char) : Reading Json :=
  (words.find? fun entry => entry.1.isPrefixOf cs).map fun entry =>
    (entry.2, cs.drop entry.1.length)

/-! ## Numbers -/

/-- The value of an ASCII digit. -/
def decimalDigit? (c : Char) : Option Nat :=
  if 48 ≤ c.toNat ∧ c.toNat ≤ 57 then some (c.toNat - 48) else none

/-- The ASCII digits at the head of a text. -/
def decimalDigits : List Char → List Nat × List Char
  | [] => ([], [])
  | c :: rest =>
    match decimalDigit? c with
    | some d => let (ds, after) := decimalDigits rest; (d :: ds, after)
    | none => ([], c :: rest)

/-- The digits in front of a decimal point: a zero by itself, or digits that begin with another
one. -/
def wholeDigits? (cs : List Char) : Reading (List Nat) :=
  match decimalDigits cs with
  | ([], _) => none
  | (0 :: _, _) => some ([0], cs.drop 1)
  | (digits, rest) => some (digits, rest)

/-- The digits behind a decimal point. A point without digits does not belong to the number. -/
def placeDigits (cs : List Char) : List Nat × List Char :=
  match cs with
  | '.' :: rest =>
    match decimalDigits rest with
    | ([], _) => ([], cs)
    | found => found
  | _ => ([], cs)

/-- The exponent. A letter without digits does not belong to the number. -/
def exponent? (cs : List Char) : Reading Int :=
  match cs with
  | c :: rest =>
    if c = 'e' ∨ c = 'E' then
      let (negative, body) := sign rest
      match decimalDigits body with
      | ([], _) => none
      | (digits, after) => some (signedInt negative digits, after)
    else none
  | [] => none

/-- The number with the given digits; without places and exponent it is an integer. -/
def numberOf (negative : Bool) (whole places : List Nat) : Option Int → Json
  | some e =>
    .float (.ofDecimal negative (ofDigits (whole ++ places)) (e - (places.length : Int)))
  | none =>
    if places = [] then .int (signedInt negative whole)
    else .float (.ofDecimal negative (ofDigits (whole ++ places)) (-(places.length : Int)))

/-- Reads a number behind its sign. -/
def magnitude? (negative : Bool) (cs : List Char) : Reading Json :=
  match wholeDigits? cs with
  | none => none
  | some (whole, rest) =>
    let (places, afterPlaces) := placeDigits rest
    match exponent? afterPlaces with
    | some (e, after) => some (numberOf negative whole places (some e), after)
    | none => some (numberOf negative whole places none, afterPlaces)

/-- **Reads a number.** -/
def number? : List Char → Reading Json
  | '-' :: rest => magnitude? true rest
  | cs => magnitude? false cs

/-! ## Strings -/

/-- The value of a hexadecimal digit. -/
def hexValue? (c : Char) : Option Nat :=
  let n := c.toNat
  if 48 ≤ n ∧ n ≤ 57 then some (n - 48)
  else if 97 ≤ n ∧ n ≤ 102 then some (n - 87)
  else if 65 ≤ n ∧ n ≤ 70 then some (n - 55)
  else none

/-- The code unit that four hexadecimal digits denote. -/
def codeUnit? (a b c d : Char) : Option Nat := do
  let a ← hexValue? a
  let b ← hexValue? b
  let c ← hexValue? c
  let d ← hexValue? d
  return ((a * 16 + b) * 16 + c) * 16 + d

/-- Whether a code unit is the first half of a pair. -/
def isHighHalf (u : Nat) : Bool :=
  0xD800 ≤ u && u < 0xDC00

/-- Whether a code unit is the second half of a pair. -/
def isLowHalf (u : Nat) : Bool :=
  0xDC00 ≤ u && u < 0xE000

/-- The character of a code unit; half a pair by itself is no character and is replaced. -/
def unitChar (u : Nat) : Char :=
  if isHighHalf u || isLowHalf u then '\uFFFD' else Char.ofNat u

/-- The character of a pair of code units. -/
def pairChar (high low : Nat) : Char :=
  Char.ofNat (0x10000 + (high - 0xD800) * 0x400 + (low - 0xDC00))

/-- The character that a letter behind a backslash stands for. -/
def escape? (c : Char) : Option Char :=
  match c with
  | '"' => some '"'
  | '\\' => some '\\'
  | '/' => some '/'
  | 'b' => some '\x08'
  | 'f' => some '\x0c'
  | 'n' => some '\n'
  | 'r' => some '\r'
  | 't' => some '\t'
  | _ => none

/-- The code unit at the head of a text, written `\uXXXX`. -/
def escapedUnit? : List Char → Option Nat
  | '\\' :: 'u' :: a :: b :: c :: d :: _ => codeUnit? a b c d
  | _ => none

/-- Reads a string behind its opening quote; `skip` characters at the head have been read already,
and `read` holds what has been read, in reverse. Control characters have to be escaped. -/
def stringBody? (skip : Nat) (read : List Char) : List Char → Reading String
  | [] => none
  | c :: rest =>
    match skip with
    | skip + 1 => stringBody? skip read rest
    | 0 =>
      if c = '"' then some (String.ofList read.reverse, rest)
      else if c.toNat < 32 then none
      else if c = '\\' then
        match escapedUnit? (c :: rest) with
        | some high =>
          match isHighHalf high, escapedUnit? (rest.drop 5) with
          | true, some low =>
            if isLowHalf low then stringBody? 11 (pairChar high low :: read) rest
            else stringBody? 5 (unitChar high :: read) rest
          | _, _ => stringBody? 5 (unitChar high :: read) rest
        | none =>
          match rest with
          | [] => none
          | letter :: _ =>
            match escape? letter with
            | some meant => stringBody? 1 (meant :: read) rest
            | none => none
      else stringBody? 0 (c :: read) rest

/-! ## Tokens -/

/-- The token of a single character. -/
def mark? (c : Char) : Option Token :=
  match c with
  | '[' => some .leftBracket
  | ']' => some .rightBracket
  | '\x7b' => some .leftBrace
  | '\x7d' => some .rightBrace
  | ',' => some .comma
  | ':' => some .colon
  | _ => none

/-- Whether a character may stand between tokens. -/
def isSpace (c : Char) : Bool :=
  c = ' ' || c = '\t' || c = '\n' || c = '\r'

/-- Reads one token at the head of a text that does not begin with a space. -/
def token? (cs : List Char) : Reading Token :=
  match cs with
  | [] => none
  | c :: rest =>
    match mark? c with
    | some mark => some (mark, rest)
    | none =>
      if c = '"' then (stringBody? 0 [] rest).map fun (s, after) => (.string s, after)
      else
        match word? cs with
        | some (value, after) => some (.scalar value, after)
        | none => (number? cs).map fun (value, after) => (.scalar value, after)

/-- The tokens of a text; `skip` characters at the head belong to the token before. -/
def tokensFrom? (skip : Nat) : List Char → Option (List Token)
  | [] => some []
  | c :: rest =>
    match skip with
    | skip + 1 => tokensFrom? skip rest
    | 0 =>
      if isSpace c then tokensFrom? 0 rest
      else
        match token? (c :: rest) with
        | none => none
        | some (t, after) =>
          (tokensFrom? (rest.length - after.length) rest).map (t :: ·)

/-- **The tokens of a text**; `none` if something in it is no token. -/
def tokens? (text : String) : Option (List Token) :=
  tokensFrom? 0 text.toList

end ExactAlgebra.Json
