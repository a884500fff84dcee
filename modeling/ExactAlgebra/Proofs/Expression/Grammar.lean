import ExactAlgebra.Proofs.Expression.Reading

/-!
# Derivations in the grammar of expressions

A derivation tree has one type for each symbol of the grammar, and one constructor for each way to
derive that symbol. Its yield is the list of tokens at its leaves. Its value is found from the leaves
up and from left to right, with the arithmetic of polynomials; the first fault on the way is the
value of the whole tree.

A repetition is a symbol of its own: `Addends` are what follows the first product of a sum, `Factors`
what follows the first factor of a product. What they stand for depends on what has been read, so
their values are functions of that.

## Main statements

* `Signed.beginsFactor_iff` — what may stand beside a factor, with nothing in between.

## Main definitions

* `Sum`, `Addends`, `Product`, `Factors`, `Signed`, `Power`, `Exponent`, `Amount`, `Primary` — the
  derivation trees;
* `Sum.yield`, `Sum.value` — their tokens, and the polynomial that they stand for.
-/

namespace ExactAlgebra.Grammar

open Expression

/-! ## Trees -/

mutual

/-- **A derivation of an expression**: a product, and those that are added to it. -/
inductive Sum where
  | mk (first : Product) (more : Addends)

/-- The products that are added and subtracted. -/
inductive Addends where
  | nil
  | plus (p : Product) (more : Addends)
  | minus (p : Product) (more : Addends)

/-- **A derivation of a term**: a factor, and those that it is multiplied with. -/
inductive Product where
  | mk (first : Signed) (more : Factors)

/-- The factors that multiply and divide. One that stands beside the factor in front of it, with
nothing in between, has no sign: the sign would add or subtract. -/
inductive Factors where
  | nil
  | times (f : Signed) (more : Factors)
  | dividedBy (f : Signed) (more : Factors)
  | beside (p : Power) (more : Factors)

/-- **A derivation of a signed power.** -/
inductive Signed where
  | plus (f : Signed)
  | minus (f : Signed)
  | power (p : Power)

/-- **A derivation of a power**: a primary, with an exponent or without. -/
inductive Power where
  | plain (base : Primary)
  | raised (base : Primary) (e : Exponent)

/-- **A derivation of an exponent**: an amount, with a sign or without. -/
inductive Exponent where
  | plain (a : Amount)
  | plus (a : Amount)
  | minus (a : Amount)

/-- **A derivation of an amount.** -/
inductive Amount where
  | number (spelling : String)
  | paren (inner : Sum)

/-- **A derivation of a primary.** -/
inductive Primary where
  | number (spelling : String)
  | letter (c : Char)
  | sqrt (inner : Sum)
  | paren (inner : Sum)

end

/-! ## Yields -/

mutual

/-- **The tokens of an expression.** -/
def Sum.yield : Sum → List Token
  | .mk first more => first.yield ++ more.yield

def Addends.yield : Addends → List Token
  | .nil => []
  | .plus p more => .plus :: (p.yield ++ more.yield)
  | .minus p more => .minus :: (p.yield ++ more.yield)

def Product.yield : Product → List Token
  | .mk first more => first.yield ++ more.yield

def Factors.yield : Factors → List Token
  | .nil => []
  | .times f more => .times :: (f.yield ++ more.yield)
  | .dividedBy f more => .dividedBy :: (f.yield ++ more.yield)
  | .beside p more => p.yield ++ more.yield

def Signed.yield : Signed → List Token
  | .plus f => .plus :: f.yield
  | .minus f => .minus :: f.yield
  | .power p => p.yield

def Power.yield : Power → List Token
  | .plain base => base.yield
  | .raised base e => base.yield ++ .caret :: e.yield

def Exponent.yield : Exponent → List Token
  | .plain a => a.yield
  | .plus a => .plus :: a.yield
  | .minus a => .minus :: a.yield

def Amount.yield : Amount → List Token
  | .number spelling => [.number spelling]
  | .paren inner => .opening :: (inner.yield ++ [.closing])

def Primary.yield : Primary → List Token
  | .number spelling => [.number spelling]
  | .letter c => [.letter c]
  | .sqrt inner => .sqrt :: .opening :: (inner.yield ++ [.closing])
  | .paren inner => .opening :: (inner.yield ++ [.closing])

end

/-! ## Values -/

mutual

/-- **The polynomial that an expression stands for.** -/
def Sum.value : Sum → Except Error Poly
  | .mk first more => do
    let p ← first.value
    more.value p

/-- What adding and subtracting make of the sum so far. -/
def Addends.value : Addends → Poly → Except Error Poly
  | .nil, sum => .ok sum
  | .plus p more, sum => do
    let q ← p.value
    let next ← sum.add q
    more.value next
  | .minus p more, sum => do
    let q ← p.value
    let next ← sum.sub q
    more.value next

def Product.value : Product → Except Error Poly
  | .mk first more => do
    let p ← first.value
    more.value p

/-- What multiplying and dividing make of the product so far. -/
def Factors.value : Factors → Poly → Except Error Poly
  | .nil, product => .ok product
  | .times f more, product => do
    let q ← f.value
    let next ← product.mul q
    more.value next
  | .dividedBy f more, product => do
    let q ← f.value
    let next ← product.divide q
    more.value next
  | .beside p more, product => do
    let q ← p.value
    let next ← product.mul q
    more.value next

def Signed.value : Signed → Except Error Poly
  | .plus f => f.value
  | .minus f => do
    let p ← f.value
    return p.neg
  | .power p => p.value

def Power.value : Power → Except Error Poly
  | .plain base => base.value
  | .raised base e => do
    let p ← base.value
    let q ← e.value
    p.raise q

def Exponent.value : Exponent → Except Error Rat
  | .plain a => a.value
  | .plus a => a.value
  | .minus a => do
    let q ← a.value
    return -q

def Amount.value : Amount → Except Error Rat
  | .number spelling => Rational.parse spelling
  | .paren inner => do
    let p ← inner.value
    exponentValue p

def Primary.value : Primary → Except Error Poly
  | .number spelling => do
    let q ← Rational.parse spelling
    return .constant (.ofRat q) ""
  | .letter c => .ok (.power (String.singleton c) 1)
  | .sqrt inner => do
    let p ← inner.value
    p.raise (1 / 2)
  | .paren inner => inner.value

end

/-! ## First tokens -/

theorem Primary.beginsFactor (p : Primary) : BeginsFactor p.yield := by
  cases p with
  | number spelling => exact ⟨_, _, rfl, rfl⟩
  | letter c => exact ⟨_, _, rfl, rfl⟩
  | sqrt inner => exact ⟨_, _, rfl, rfl⟩
  | paren inner => exact ⟨_, _, rfl, rfl⟩

theorem Power.beginsFactor (p : Power) : BeginsFactor p.yield := by
  cases p with
  | plain base => exact base.beginsFactor
  | raised base e => exact base.beginsFactor.append _

/-- An amount begins with a number or a parenthesis, not with a sign. -/
theorem Amount.beginsFactor (a : Amount) : BeginsFactor a.yield := by
  cases a with
  | number spelling => exact ⟨_, _, rfl, rfl⟩
  | paren inner => exact ⟨_, _, rfl, rfl⟩

/-- **A signed power begins with a number, a letter, a root or a parenthesis exactly if it has no
sign.** So the factors that may stand beside another one are the powers. -/
theorem Signed.beginsFactor_iff (f : Signed) : BeginsFactor f.yield ↔ ∃ p, f = .power p := by
  constructor
  · intro begins
    cases f with
    | plus f => exact absurd rfl (begins.ne_cons rfl f.yield)
    | minus f => exact absurd rfl (begins.ne_cons rfl f.yield)
    | power p => exact ⟨p, rfl⟩
  · rintro ⟨p, rfl⟩
    exact p.beginsFactor

/-! ## What follows a part -/

variable {rest : List Token}

/-- Further factors do not go on with an exponent. -/
theorem Factors.noCaret (more : Factors) (plain : NoCaret rest) : NoCaret (more.yield ++ rest) := by
  cases more with
  | nil => exact plain
  | times f more => simp [Factors.yield, NoCaret]
  | dividedBy f more => simp [Factors.yield, NoCaret]
  | beside p more =>
    rw [Factors.yield, List.append_assoc]
    exact (p.beginsFactor.append _).noCaret

/-- Further products do not go on with a factor. -/
theorem Addends.endsTerm (more : Addends) (ends : ∀ t ∈ rest.head?, t = .closing) :
    EndsTerm (more.yield ++ rest) := by
  cases more with
  | nil => exact endsTerm_of_closing ends
  | plus p more => exact fun t mem => .inl (Option.some.inj mem).symm
  | minus p more => exact fun t mem => .inr (.inl (Option.some.inj mem).symm)

end ExactAlgebra.Grammar
