import ExactAlgebra.Poly.Text

/-!
# Arithmetic of polynomials

Sums and products are formed term by term and brought into canonical form. They fail if the operands
are in different variables, or if like terms have unlike radicals. Division is by a single term
only.

## Main definitions

* `commonSymbol` — the variable of a result;
* `neg`, `add`, `sub`, `mul`, `divide`, `natPow`, `intPow`.
-/

namespace ExactAlgebra.Poly

/-- **The variable of a result**: the one that the operands name. -/
def commonSymbol (p q : Poly) : Except Error String :=
  if p.symbol ≠ "" ∧ q.symbol ≠ "" ∧ p.symbol ≠ q.symbol then
    .error (.severalVariables [p.symbol, q.symbol])
  else .ok (if p.symbol = "" then q.symbol else p.symbol)

theorem neg_coefficient_ne_zero {a : Radical} (h : a.coefficient ≠ 0) :
    a.neg.coefficient ≠ 0 := by
  have ne : -a.coefficient ≠ 0 := by grind
  simp [Radical.neg, Radical.ofParts, ne]

/-- The opposite. -/
def neg (p : Poly) : Poly where
  terms := p.terms.map fun t => ⟨t.coefficient.neg, t.power⟩
  symbol := p.symbol
  descending := List.pairwise_map.2 p.descending
  nonzero := by
    intro t ht
    obtain ⟨s, hs, rfl⟩ := List.mem_map.1 ht
    exact neg_coefficient_ne_zero (p.nonzero s hs)

/-- **The sum.** -/
def add (p q : Poly) : Except Error Poly := do
  let symbol ← p.commonSymbol q
  ofTerms symbol (p.terms ++ q.terms)

/-- The difference. -/
def sub (p q : Poly) : Except Error Poly :=
  p.add q.neg

/-- The product of two terms. -/
def mulTerm (s t : Term) : Except Error Term :=
  (s.coefficient.mul t.coefficient).map fun c => ⟨c, s.power + t.power⟩

/-- The products of every term of the first list with every term of the second. -/
def products (ss ts : List Term) : Except Error (List Term) :=
  (ss.flatMap fun s => ts.map fun t => (s, t)).mapM fun (s, t) => mulTerm s t

/-- **The product.** -/
def mul (p q : Poly) : Except Error Poly := do
  let symbol ← p.commonSymbol q
  let ts ← products p.terms q.terms
  ofTerms symbol ts

/-- The quotient of two terms. -/
def divideTerm (s t : Term) : Except Error Term :=
  (s.coefficient.div t.coefficient).map fun c => ⟨c, s.power - t.power⟩

/-- **The quotient by a single term.** -/
def divide (p q : Poly) : Except Error Poly :=
  match q.terms with
  | [] => .error .divisionByZero
  | [d] => do
    let symbol ← p.commonSymbol q
    let ts ← p.terms.mapM (divideTerm · d)
    ofTerms symbol ts
  | _ => .error (.divisionBySeveralTerms q.text)

/-- `result · pⁿ`, by repeated multiplication from the left. -/
def mulPow (result p : Poly) : Nat → Except Error Poly
  | 0 => .ok result
  | n + 1 => do mulPow (← result.mul p) p n

/-- A natural power; the zeroth is one. -/
def natPow (p : Poly) (n : Nat) : Except Error Poly :=
  mulPow (constant (.ofRat 1) p.symbol) p n

/-- A power with an integer exponent, which must not be negative. -/
def intPow (p : Poly) (n : Int) : Except Error Poly :=
  if n < 0 then .error .negativePolynomialPower else p.natPow n.natAbs

end ExactAlgebra.Poly
