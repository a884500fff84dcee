import ExactAlgebra.Expression.Token
import ExactAlgebra.Poly.Power

/-!
# Reading an expression

The grammar, in which `^` binds tighter than a sign in front of it, so that `-x^2` is `-(x^2)`:

    expression ::= term (("+" | "-") term)*
    term       ::= unary (("*" | "/" | nothing) unary)*
    unary      ::= ("+" | "-") unary | power
    power      ::= primary ("^" exponent)?
    exponent   ::= ("+" | "-")? amount
    amount     ::= number | "(" expression ")"
    primary    ::= number | letter | "sqrt" "(" expression ")" | "(" expression ")"

Nothing between two factors multiplies them, provided that the second begins with a number, a
letter, `sqrt` or a parenthesis. There is a reader for each symbol of the grammar. It evaluates what
it reads from left to right, so the first fault in the text is the one that is reported, whatever
its kind.

Every reader answers with the tokens that it left, and with the proof that they are fewer than it
was given. That is why the readers terminate: a symbol either takes a token or descends one level in
the grammar.

## Main definitions

* `expression`, `term`, `unary`, `power`, `exponent`, `amount`, `primary` — the readers;
* `parse` — the polynomial that a whole text denotes.
-/

namespace ExactAlgebra.Expression

/-- The tokens after a symbol that took at least one. -/
abbrev Shorter (ts : List Token) :=
  { rest : List Token // rest.length < ts.length }

/-- The tokens after a repetition that may have taken none. -/
abbrev NotLonger (ts : List Token) :=
  { rest : List Token // rest.length ≤ ts.length }

/-- Takes a closing parenthesis. -/
def close (text : String) (ts : List Token) : Except Error (Shorter ts) :=
  match ts with
  | .closing :: rest => .ok ⟨rest, by simp⟩
  | t :: _ => .error (.expected ")" (some t.text) text)
  | [] => .error (.expected ")" none text)

/-- Takes an opening parenthesis. -/
def openParen (text : String) (ts : List Token) : Except Error (Shorter ts) :=
  match ts with
  | .opening :: rest => .ok ⟨rest, by simp⟩
  | t :: _ => .error (.expected "(" (some t.text) text)
  | [] => .error (.expected "(" none text)

/-- Takes a caret, if there is one. -/
def caret? (ts : List Token) : Option (Shorter ts) :=
  match ts with
  | .caret :: rest => some ⟨rest, by simp⟩
  | _ => none

/-- The exponent that an expression in parentheses denotes: it has to be a rational constant. -/
def exponentValue (p : Poly) : Except Error Rat :=
  if p.isConstant && p.leadingCoefficient.isRational then .ok p.leadingCoefficient.coefficient
  else .error (.exponentNotRational p.text)

/-- The sign in front of an exponent: whether it is a minus, and the tokens after it. -/
def exponentSign (ts : List Token) : Bool × NotLonger ts :=
  match ts with
  | .minus :: rest => (true, ⟨rest, by simp⟩)
  | .plus :: rest => (false, ⟨rest, by simp⟩)
  | ts => (false, ⟨ts, by simp⟩)

/-- A number with the sign that stood in front of it. -/
def signed (negative : Bool) (q : Rat) : Rat :=
  if negative then -q else q

/-- Why nothing can begin with these tokens. -/
def unexpected (text : String) (ts : List Token) : Error :=
  match ts with
  | t :: _ => .unexpectedToken t.text text
  | [] => .unexpectedEnd text

mutual

/-- **An expression**: a term, and the terms added to it. -/
def expression (text : String) (ts : List Token) : Except Error (Poly × Shorter ts) := do
  let (first, rest) ← term text ts
  let (sum, after) ← addTerms text first rest.val
  return (sum, ⟨after.val, by have := rest.property; have := after.property; omega⟩)
termination_by (ts.length, 5)

/-- The terms that are added to and subtracted from `sum`. -/
def addTerms (text : String) (sum : Poly) (ts : List Token) :
    Except Error (Poly × NotLonger ts) :=
  match ts with
  | .plus :: tail => do
    let (p, rest) ← term text tail
    let next ← sum.add p
    let (total, after) ← addTerms text next rest.val
    return (total, ⟨after.val, by
      have := rest.property
      have := after.property
      simp only [List.length_cons]
      omega⟩)
  | .minus :: tail => do
    let (p, rest) ← term text tail
    let next ← sum.sub p
    let (total, after) ← addTerms text next rest.val
    return (total, ⟨after.val, by
      have := rest.property
      have := after.property
      simp only [List.length_cons]
      omega⟩)
  | ts => .ok (sum, ⟨ts, by simp⟩)
termination_by (ts.length, 0)
decreasing_by
  · exact Prod.Lex.left _ _ (by simp)
  · exact Prod.Lex.left _ _ (Nat.lt_succ_of_lt rest.property)
  · exact Prod.Lex.left _ _ (by simp)
  · exact Prod.Lex.left _ _ (Nat.lt_succ_of_lt rest.property)

/-- **A term**: a signed power, and the factors that multiply and divide it. -/
def term (text : String) (ts : List Token) : Except Error (Poly × Shorter ts) := do
  let (first, rest) ← unary text ts
  let (product, after) ← multiplyFactors text first rest.val
  return (product, ⟨after.val, by have := rest.property; have := after.property; omega⟩)
termination_by (ts.length, 4)

/-- The factors that `product` is multiplied and divided by. -/
def multiplyFactors (text : String) (product : Poly) (ts : List Token) :
    Except Error (Poly × NotLonger ts) :=
  match ts with
  | [] => .ok (product, ⟨[], by simp⟩)
  | .times :: tail => do
    let (p, rest) ← unary text tail
    let next ← product.mul p
    let (total, after) ← multiplyFactors text next rest.val
    return (total, ⟨after.val, by
      have := rest.property
      have := after.property
      simp only [List.length_cons]
      omega⟩)
  | .dividedBy :: tail => do
    let (p, rest) ← unary text tail
    let next ← product.divide p
    let (total, after) ← multiplyFactors text next rest.val
    return (total, ⟨after.val, by
      have := rest.property
      have := after.property
      simp only [List.length_cons]
      omega⟩)
  | t :: tail =>
    if t.beginsFactor then do
      let (p, rest) ← unary text (t :: tail)
      let next ← product.mul p
      let (total, after) ← multiplyFactors text next rest.val
      return (total, ⟨after.val, by have := rest.property; have := after.property; omega⟩)
    else .ok (product, ⟨t :: tail, by simp⟩)
termination_by (ts.length, 3)
decreasing_by
  · exact Prod.Lex.left _ _ (by simp)
  · exact Prod.Lex.left _ _ (Nat.lt_succ_of_lt rest.property)
  · exact Prod.Lex.left _ _ (by simp)
  · exact Prod.Lex.left _ _ (Nat.lt_succ_of_lt rest.property)
  · exact Prod.Lex.right _ (by omega)
  · exact Prod.Lex.left _ _ rest.property

/-- **A signed power**: any number of signs, and a power. -/
def unary (text : String) (ts : List Token) : Except Error (Poly × Shorter ts) :=
  match ts with
  | .minus :: tail => do
    let (p, rest) ← unary text tail
    return (p.neg, ⟨rest.val, by have := rest.property; simp only [List.length_cons]; omega⟩)
  | .plus :: tail => do
    let (p, rest) ← unary text tail
    return (p, ⟨rest.val, by have := rest.property; simp only [List.length_cons]; omega⟩)
  | ts => power text ts
termination_by (ts.length, 2)

/-- **A power**: a primary, with an exponent if `^` follows. -/
def power (text : String) (ts : List Token) : Except Error (Poly × Shorter ts) := do
  let (base, rest) ← primary text ts
  match caret? rest.val with
  | some tail =>
    let (e, after) ← exponent text tail.val
    let raised ← base.raise e
    return (raised, ⟨after.val, by
      have := rest.property
      have := tail.property
      have := after.property
      omega⟩)
  | none => return (base, rest)
termination_by (ts.length, 1)
decreasing_by
  · exact Prod.Lex.right _ (by omega)
  · have := rest.property
    have := tail.property
    exact Prod.Lex.left _ _ (by omega)

/-- **An exponent**: an amount, with a sign in front of it or none. -/
def exponent (text : String) (ts : List Token) : Except Error (Rat × Shorter ts) := do
  let (negative, body) := exponentSign ts
  let (q, after) ← amount text body.val
  return (signed negative q, ⟨after.val, by
    have := body.property
    have := after.property
    omega⟩)
termination_by (ts.length, 1)
decreasing_by exact Prod.Lex.right' _ body.property (by omega)

/-- **An amount**: a number, or an expression in parentheses that denotes one. -/
def amount (text : String) (ts : List Token) : Except Error (Rat × Shorter ts) :=
  match ts with
  | .number spelling :: tail => do
    let q ← Rational.parse spelling
    return (q, ⟨tail, by simp⟩)
  | .opening :: tail => do
    let (inner, rest) ← expression text tail
    let after ← close text rest.val
    let q ← exponentValue inner
    return (q, ⟨after.val, by
      have := rest.property
      have := after.property
      simp only [List.length_cons]
      omega⟩)
  | _ => .error (.missingExponent text)
termination_by (ts.length, 0)
decreasing_by exact Prod.Lex.left _ _ (by simp)

/-- **A primary**: a number, a letter, a square root, or an expression in parentheses. -/
def primary (text : String) (ts : List Token) : Except Error (Poly × Shorter ts) :=
  match ts with
  | .number spelling :: tail => do
    let q ← Rational.parse spelling
    return (Poly.constant (.ofRat q) "", ⟨tail, by simp⟩)
  | .letter c :: tail => .ok (Poly.power (String.singleton c) 1, ⟨tail, by simp⟩)
  | .sqrt :: tail => do
    let start ← openParen text tail
    let (inner, rest) ← expression text start.val
    let after ← close text rest.val
    let root ← inner.raise (1 / 2)
    return (root, ⟨after.val, by
      have := start.property
      have := rest.property
      have := after.property
      simp only [List.length_cons]
      omega⟩)
  | .opening :: tail => do
    let (inner, rest) ← expression text tail
    let after ← close text rest.val
    return (inner, ⟨after.val, by
      have := rest.property
      have := after.property
      simp only [List.length_cons]
      omega⟩)
  | ts => .error (unexpected text ts)
termination_by (ts.length, 0)
decreasing_by
  · have := start.property
    simp only [List.length_cons]
    exact Prod.Lex.left _ _ (by omega)
  · simp only [List.length_cons]
    exact Prod.Lex.left _ _ (by omega)

end

/-- The polynomial that a list of tokens denotes: one expression, and nothing after it. -/
def parseTokens (text : String) (ts : List Token) : Except Error Poly := do
  if ts = [] then throw .emptyExpression
  let (p, rest) ← expression text ts
  match rest.val with
  | [] => return p
  | t :: _ => throw (.unexpectedToken t.text text)

/-- **The polynomial that a text denotes.** -/
def parse (text : String) : Except Error Poly := do
  let ts ← tokens text
  parseTokens text ts

end ExactAlgebra.Expression
