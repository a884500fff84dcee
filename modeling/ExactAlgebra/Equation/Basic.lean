import ExactAlgebra.Equation.Root
import ExactAlgebra.Expression.Parse
import ExactAlgebra.Text.Split

/-!
# Equations

An equation `lhs = rhs` in one variable is brought into the standard form `lhs - rhs = 0` and solved
by its degree.

## Main definitions

* `splitSides` — the two sides of an equation as texts;
* `Equation`, `Equation.parse` — an equation with its standard form;
* `Solution`, `Equation.solve` — the answer, with the method that found it.
-/

namespace ExactAlgebra

open ExactAlgebra.Text

/-! ## Equations -/

/-- **The two sides of an equation.** `==` separates them as well as `=`; a text without either is
set equal to zero. -/
def splitSides (s : String) : Except Error (String × String) :=
  let parts :=
    match splitOn "==" s with
    | [_] => splitOn "=" s
    | several => several
  match parts with
  | [_] => .ok (s, "0")
  | [left, right] =>
    if trim left = "" ∨ trim right = "" then .error .missingSide
    else .ok (trim left, trim right)
  | _ => .error .severalEqualsSigns

/-- **An equation in standard form** — the text it was read from, both sides, their difference, and
the variable. -/
structure Equation where
  source : String
  lhs : Poly
  rhs : Poly
  difference : Poly
  symbol : String
  deriving DecidableEq

/-- The first name that is not empty. -/
def firstName : List String → String
  | [] => "x"
  | name :: rest => if name = "" then firstName rest else name

namespace Equation

/-- **Reads an equation.** -/
def parse (s : String) : Except Error Equation := do
  let source := trim s
  let (left, right) ← splitSides source
  let lhs ← Expression.parse left
  let rhs ← Expression.parse right
  let difference ← lhs.sub rhs
  return {
    source := source
    lhs := lhs
    rhs := rhs
    difference := difference
    symbol := firstName [difference.symbol, lhs.symbol, rhs.symbol] }

/-- The text of the standard form. -/
def text (e : Equation) : String :=
  e.difference.text ++ " = 0"

end Equation

/-! ## Solutions -/

/-- **What an equation has for an answer.** -/
inductive SolutionKind where
  | identity
  | contradiction
  | noRealRoots
  | roots
  deriving DecidableEq

/-- The name of a kind of answer. -/
def SolutionKind.name : SolutionKind → String
  | identity => "identity"
  | contradiction => "contradiction"
  | noRealRoots => "no_real_roots"
  | roots => "roots"

/-- **How an equation was solved.** -/
inductive Method where
  | constant
  | linear
  | quadraticFormula
  | factorization
  deriving DecidableEq

namespace Method

/-- The name of a method. -/
def name : Method → String
  | constant => "constant"
  | linear => "linear"
  | quadraticFormula => "quadratic formula"
  | factorization => "factorization"

/-- The name of a method as a heading. -/
def title : Method → String
  | constant => "Constant"
  | linear => "Linear"
  | quadraticFormula => "Quadratic Formula"
  | factorization => "Factorization"

end Method

/-- **The solution of an equation.** Only a solution of kind `roots` lists any. -/
structure Solution where
  kind : SolutionKind
  symbol : String
  method : Method
  roots : List Root
  deriving DecidableEq

/-- **The text of a solution.** -/
def Solution.text (s : Solution) : String :=
  match s.kind with
  | .identity => s.symbol ++ " can be any value (identity)"
  | .contradiction => "No solution (contradiction)"
  | .noRealRoots => "No real solution (negative discriminant)"
  | .roots => ", ".intercalate (s.roots.map fun r => s.symbol ++ " = " ++ r.text)

namespace Equation

/-- Refuses a standard form that cannot be solved. -/
def checkSolvable (p : Poly) : Except Error Unit :=
  if ! p.hasRationalCoefficients then .error .irrationalEquation
  else if ! p.hasNaturalPowers then .error .unnaturalEquation
  else .ok ()

/-- The solution of `p = 0`, given the coefficients of `p`. A double root of a quadratic is listed
once. -/
def solveDense (symbol : String) (coefficients : List Rat) : Except Error Solution :=
  match coefficients with
  | [] => .ok ⟨.identity, symbol, .constant, []⟩
  | [_] => .ok ⟨.contradiction, symbol, .constant, []⟩
  | [a, b] => .ok ⟨.roots, symbol, .linear, [.rational (-b / a)]⟩
  | [a, b, c] => do
    match ← Dense.realRoots a b c with
    | none => return ⟨.noRealRoots, symbol, .quadraticFormula, []⟩
    | some (r, s) => return ⟨.roots, symbol, .quadraticFormula, if r = s then [r] else [r, s]⟩
  | several => .ok ⟨.roots, symbol, .factorization, Dense.allRoots several⟩

/-- **Solves an equation.** -/
def solve (e : Equation) : Except Error Solution := do
  checkSolvable e.difference
  let coefficients ← e.difference.dense
  solveDense e.symbol coefficients

end Equation

end ExactAlgebra
