import ExactAlgebra.Expression.Token
import ExactAlgebra.Text.Pattern
import ExactAlgebra.Text.Split

/-!
# Tokens by matching a pattern

The tokens of a text as they are found from left to right. Typographic signs are replaced one kind
after the other, and blanks at the end are dropped. Then one pattern is matched again and again, each
time where its last match has ended: blanks, and behind them a number, letters, or any one character
but a line end. Nothing here says that the pattern matches wherever it is tried.

## Main definitions

* `replacements`, `replaced` — the typographic signs, and a text without them;
* `tokenPattern` — the pattern, with `Lexeme` for its groups;
* `wordTokens` — the tokens of letters in a row;
* `scan`, `scanText` — the tokens that are found by matching.
-/

namespace ExactAlgebra

open ExactAlgebra.Text

namespace Expression

/-! ## Replacements -/

/-- **The typographic signs** and what is written for them, in the order in which they are replaced.
Two stars come last, since a typographic sign may stand for one of them. -/
def replacements : List (String × String) :=
  [("√", "sqrt"), ("−", "-"), ("×", "*"), ("·", "*"), ("÷", "/"), ("²", "^2"), ("³", "^3"),
   ("**", "^")]

/-- The text without typographic signs. -/
def replaced (text : String) : String :=
  replacements.foldl (fun text (old, new) => replace old new text) text

/-- The text without the blanks at its end. -/
def trimEnd (cs : List Char) : List Char :=
  (cs.reverse.dropWhile isBlank).reverse

/-! ## The pattern -/

/-- What a match is: a number, letters in a row, or some other character. -/
inductive Lexeme where
  | number
  | name
  | symbol

/-- A number: digits that a point and more digits may follow, or a point and digits. -/
def numberPattern : Pattern Lexeme :=
  .either
    (.followed (.several isDigit) (.perhaps (.followed (.one (· = '.')) (.many isDigit))))
    (.followed (.one (· = '.')) (.several isDigit))

/-- **The pattern of a token** behind any number of blanks. -/
def tokenPattern : Pattern Lexeme :=
  .followed (.many isBlank)
    (.either (.group .number numberPattern)
      (.either (.group .name (.several Char.isAlpha)) (.group .symbol (.one (· ≠ '\n')))))

/-! ## The tokens -/

/-- The tokens of letters in a row: as many roots as there are, and single letters. -/
def wordTokens : List Char → List Token
  | [] => []
  | 's' :: 'q' :: 'r' :: 't' :: rest => .sqrt :: wordTokens rest
  | c :: rest => .letter c :: wordTokens rest

/-- The signs that are tokens. -/
def signs : List Char :=
  ['+', '-', '*', '/', '^', '(', ')']

/-- The token of a sign. -/
def signToken? (c : Char) : Option Token :=
  if c ∈ signs then Token.ofChar? c else none

/-- **The tokens that are found by matching**, behind those that have been read. There is no outcome if
the pattern does not match where it is tried. -/
def scan (read : List Token) (cs : List Char) : Option (Except Error (List Token)) :=
  if cs = [] then some (.ok read)
  else
    match _h : tokenPattern.best? cs with
    | none => none
    | some w =>
      match w.groups with
      | [(.number, spelling)] => scan (read ++ [.number (String.ofList spelling)]) w.after
      | [(.name, letters)] => scan (read ++ wordTokens letters) w.after
      | [(.symbol, [c])] =>
        match signToken? c with
        | some token => scan (read ++ [token]) w.after
        | none => some (.error (.invalidCharacter c))
      | _ => none
termination_by cs.length
decreasing_by all_goals exact Pattern.best?_shorter rfl _h

/-- **The tokens of a text**, found by matching. -/
def scanText (text : String) : Option (Except Error (List Token)) :=
  scan [] (trimEnd (replaced text).toList)

end Expression

end ExactAlgebra
