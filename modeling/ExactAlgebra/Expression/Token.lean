import ExactAlgebra.Error

/-!
# Tokens of an expression

An expression is read as a list of tokens: unsigned numbers, single letters, the word `sqrt`, and
seven signs. Typographic signs are replaced first: `√` to `sqrt`, `×` and `·` to `*`, `÷` to `/`,
`−` to `-`, `²` and `³` to powers, and `**` to `^`. Blanks separate tokens and mean nothing else.

## Main statements

* `numeral?_eq` — a numeral and what follows it make up the text they were read from.

## Main definitions

* `Token`, `Token.text` — tokens, and their spelling;
* `plainSigns` — the replacement of typographic signs;
* `numeral?` — the longest number at the head of a text;
* `lex` — the tokens of a text.
-/

namespace ExactAlgebra

open ExactAlgebra.Text

/-- **A token.** -/
inductive Token where
  | number (spelling : String)
  | letter (c : Char)
  | sqrt
  | plus
  | minus
  | times
  | dividedBy
  | caret
  | opening
  | closing
  deriving DecidableEq

namespace Token

/-- The spelling of a token. -/
def text : Token → String
  | number spelling => spelling
  | letter c => String.singleton c
  | sqrt => "sqrt"
  | plus => "+"
  | minus => "-"
  | times => "*"
  | dividedBy => "/"
  | caret => "^"
  | opening => "("
  | closing => ")"

/-- The token that a single character spells on its own. -/
def ofChar? (c : Char) : Option Token :=
  match c with
  | '+' => some plus
  | '-' => some minus
  | '*' => some times
  | '/' => some dividedBy
  | '^' => some caret
  | '(' => some opening
  | ')' => some closing
  | _ => if c.isAlpha then some (letter c) else none

/-- Whether the token can begin a factor, so that it multiplies what stands in front of it. -/
def beginsFactor : Token → Bool
  | number _ | letter _ | sqrt | opening => true
  | _ => false

end Token

namespace Expression

/-! ## Typographic signs -/

/-- What a typographic sign stands for. -/
def plainSign (c : Char) : List Char :=
  match c with
  | '√' => ['s', 'q', 'r', 't']
  | '−' => ['-']
  | '×' => ['*']
  | '·' => ['*']
  | '÷' => ['/']
  | '²' => ['^', '2']
  | '³' => ['^', '3']
  | _ => [c]

/-- Writes `^` for `**`, from left to right. -/
def caretForStars : List Char → List Char
  | '*' :: '*' :: rest => '^' :: caretForStars rest
  | c :: rest => c :: caretForStars rest
  | [] => []

/-- **The text in plain signs.** -/
def plainSigns (cs : List Char) : List Char :=
  caretForStars (cs.flatMap plainSign)

/-! ## Numerals -/

/-- **The longest number at the head of a text**: digits with an optional point and decimals, or a
point and decimals. With it comes what follows. -/
def numeral? (cs : List Char) : Option (List Char × List Char) :=
  match cs.takeWhile isDigit, cs.dropWhile isDigit with
  | whole, '.' :: rest =>
    if whole = [] ∧ rest.takeWhile isDigit = [] then none
    else some (whole ++ '.' :: rest.takeWhile isDigit, rest.dropWhile isDigit)
  | whole, after => if whole = [] then none else some (whole, after)

/-- **A numeral is the head of the text it was read from.** -/
theorem numeral?_eq {cs lexeme rest : List Char} (h : numeral? cs = some (lexeme, rest)) :
    lexeme ++ rest = cs := by
  have whole := List.takeWhile_append_dropWhile (p := isDigit) (l := cs)
  unfold numeral? at h
  split at h
  · rename_i r run
    have decimals := List.takeWhile_append_dropWhile (p := isDigit) (l := r)
    split at h
    · cases h
    · cases h
      rw [List.append_assoc, List.cons_append, decimals, ← run]
      exact whole
  · split at h
    · cases h
    · cases h
      exact whole

theorem numeral?_ne_nil {cs lexeme rest : List Char} (h : numeral? cs = some (lexeme, rest)) :
    lexeme ≠ [] := by
  unfold numeral? at h
  split at h
  · split at h
    · cases h
    · cases h
      simp
  · split at h
    · cases h
    · rename_i ne
      cases h
      exact ne

theorem numeral?_shorter {cs lexeme rest : List Char} (h : numeral? cs = some (lexeme, rest)) :
    rest.length < cs.length := by
  have parts := congrArg List.length (numeral?_eq h)
  have pos := List.length_pos_iff.2 (numeral?_ne_nil h)
  rw [List.length_append] at parts
  omega

/-! ## The token list -/

/-- **The tokens of a text in plain signs.** The letters `sqrt` in a row are one token, every other
letter is a token of its own. -/
def lex (cs : List Char) : Except Error (List Token) :=
  match cs with
  | [] => .ok []
  | 's' :: 'q' :: 'r' :: 't' :: rest => (lex rest).map (.sqrt :: ·)
  | c :: rest =>
    if isBlank c then lex rest
    else
      match _h : numeral? (c :: rest) with
      | some (lexeme, after) => (lex after).map (.number (String.ofList lexeme) :: ·)
      | none =>
        match Token.ofChar? c with
        | some token => (lex rest).map (token :: ·)
        | none => .error (.invalidCharacter c)
termination_by cs.length
decreasing_by
  · simp only [List.length_cons]
    omega
  · simp only [List.length_cons]
    omega
  · exact numeral?_shorter _h
  · simp only [List.length_cons]
    omega

/-- The tokens of a text. -/
def tokens (text : String) : Except Error (List Token) :=
  lex (plainSigns text.toList)

end Expression

end ExactAlgebra
