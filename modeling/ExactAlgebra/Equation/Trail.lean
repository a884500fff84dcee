import ExactAlgebra.Equation.Basic

/-!
# Solving in steps

The same answers as `Equation.solve`, told as a trail: the equation as it was entered, its standard
form, the steps of the method, the answer, and a substitution of every rational root. This is also
where texts typed by a person are checked for being empty or too long.

## Main definitions

* `checkInput` — trims a text and refuses an empty or overlong one;
* `simplifyText`, `factorText`, `solveText` — the answer to a typed text, as text; what has too many
  coefficients to list them is not factored or solved;
* `Trail.methodSteps`, `Trail.verify` — the steps of the method, and the substitutions;
* `Trail`, `Trail.ofText` — the trail of a solution.
-/

namespace ExactAlgebra

open ExactAlgebra.Text

/-! ## Typed input -/

/-- The largest number of characters that are read. -/
def inputLimit : Nat :=
  500

/-- **Trims a typed text**, and refuses it if nothing is left or too much is. -/
def checkInput (typed : String) : Except Error String :=
  let s := trim typed
  if s = "" then .error .blankExpression
  else if inputLimit < s.length then .error (.longExpression inputLimit)
  else .ok s

/-- The canonical form of a typed expression. -/
def simplifyText (typed : String) : Except Error String := do
  let s ← checkInput typed
  let p ← Expression.parse s
  return p.text

/-- A typed expression in factors. -/
def factorText (typed : String) : Except Error String := do
  let s ← checkInput typed
  let p ← Expression.parse s
  p.checkLength
  p.factoredText

/-- Solves an equation, unless it has more coefficients than can be listed. -/
def Equation.solveListed (e : Equation) : Except Error Solution := do
  checkSolvable e.difference
  e.difference.checkLength
  e.solve

/-- The solution of a typed equation. -/
def solveText (typed : String) : Except Error String := do
  let s ← checkInput typed
  let e ← Equation.parse s
  let solution ← e.solveListed
  return solution.text

/-! ## Trails -/

/-- **A step of a trail.** -/
structure TrailStep where
  description : String
  expression : String
  explanation : String
  deriving DecidableEq

/-- **The trail of a solved equation.** -/
structure Trail where
  /-- The text as it was typed. -/
  typed : String
  equation : Equation
  solution : Solution
  steps : List TrailStep
  verification : List TrailStep
  /-- Whether every substitution gave zero. -/
  passed : Bool
  deriving DecidableEq

namespace Trail

/-- The two steps that lead to the standard form. -/
def openingSteps (e : Equation) : List TrailStep :=
  [{ description := "Write the equation"
     expression := e.source
     explanation := "This is the equation as entered." },
   { description := "Move every term to the left-hand side"
     expression := e.text
     explanation := "Subtracting the right-hand side gives the standard form P(x) = 0." }]

/-- The step for an equation without a variable. -/
def constantSteps (e : Equation) (s : Solution) : List TrailStep :=
  let verdict := if s.kind = .identity then "always true" else "never true"
  [{ description := "No variable term is left"
     expression := e.text
     explanation := "The equation reduces to a constant statement that is " ++ verdict ++ "." }]

/-- The step for `a·x + b = 0`. -/
def linearSteps (x : String) (a b : Rat) : List TrailStep :=
  [{ description := "Isolate " ++ x
     expression := x ++ " = -(" ++ Rational.text b ++ ") / " ++ Rational.factorText a
     explanation := "Subtract the constant and divide by the coefficient of " ++ x ++ "." }]

/-- What the sign of a discriminant says about the roots. -/
def discriminantVerdict (d : Rat) : String :=
  if d < 0 then "A negative discriminant means there is no real root."
  else if d = 0 then "A zero discriminant gives one repeated root."
  else "Substitute into the quadratic formula; square roots stay exact."

/-- The steps for `a·x² + b·x + c = 0`. -/
def quadraticSteps (x : String) (a b c : Rat) : List TrailStep :=
  let d := Dense.discriminant a b c
  [{ description := "Compute the discriminant"
     expression := "D = b^2 - 4ac = " ++ Rational.text d
     explanation := "Here a = " ++ Rational.text a ++ ", b = " ++ Rational.text b ++ ", c = "
       ++ Rational.text c ++ "." },
   { description := "Apply the quadratic formula"
     expression := x ++ " = (-b ± sqrt(D)) / 2a"
     explanation := discriminantVerdict d }]

/-- The steps for an equation of a higher degree, with the number of factors and their product. -/
def factoringSteps (count : Nat) (product : String) (s : Solution) : List TrailStep :=
  [{ description := "Factor with the rational-root theorem"
     expression := product
     explanation := "Found " ++ natText count ++ " factor(s) by testing candidates p/q and "
       ++ "dividing them out with synthetic division." },
   { description := "Solve each factor"
     expression := s.text
     explanation := "Linear and quadratic factors are solved exactly; "
       ++ "anything of higher degree without a rational root is unsolvable." }]

/-- **The steps of the method** that found a solution. The coefficients are listed once more, and a
polynomial of a higher degree is factored once more, in both forms. -/
def methodSteps (e : Equation) (s : Solution) : Except Error (List TrailStep) :=
  match s.method with
  | .constant => .ok (constantSteps e s)
  | .linear => do
    match ← e.difference.dense with
    | [a, b] => return linearSteps e.symbol a b
    | coefficients => throw (.coefficientCount 2 coefficients.length)
  | .quadraticFormula => do
    match ← e.difference.dense with
    | [a, b, c] => return quadraticSteps e.symbol a b c
    | coefficients => throw (.coefficientCount 3 coefficients.length)
  | .factorization => do
    let factors ← e.difference.factorCompletely
    let product ← e.difference.factoredText
    return factoringSteps factors.length product s

/-- The step for the substitution of a root that gave a value. -/
def substitution (x : String) (r value : Rat) : TrailStep where
  description := "Substitute " ++ x ++ " = " ++ Rational.text r
  expression := "P(" ++ Rational.text r ++ ") = " ++ Rational.text value
    ++ (if value = 0 then "  ✓" else "  ✗")
  explanation :=
    if value = 0 then "The left-hand side minus the right-hand side is exactly 0."
    else "The substitution does not give 0."

/-- **The substitution of every rational root**, and whether all of them gave zero. -/
def verify (e : Equation) : List Root → Except Error (List TrailStep × Bool)
  | [] => .ok ([], true)
  | root :: rest =>
    match root.rational? with
    | none => verify e rest
    | some r => do
      let value ← e.difference.evaluate r
      let (steps, passed) ← verify e rest
      return (substitution e.symbol r value :: steps, value = 0 && passed)

/-- **Solves a typed equation in steps.** -/
def ofText (typed : String) : Except Error Trail := do
  let s ← checkInput typed
  let e ← Equation.parse s
  let solution ← e.solveListed
  let method ← methodSteps e solution
  let (verification, passed) ← verify e solution.roots
  return {
    typed := typed
    equation := e
    solution := solution
    steps := openingSteps e ++ method
    verification := verification
    passed := passed }

/-- The heading of a trail. -/
def problem (t : Trail) : String :=
  "Solve the equation: " ++ t.equation.source

/-- Whether the substitutions gave zero, in one word. -/
def status (t : Trail) : String :=
  if t.passed then "pass" else "fail"

/-- The text of the answer. -/
def answer (t : Trail) : String :=
  t.solution.text

/-- The degree of the standard form, as text. -/
def degreeText (t : Trail) : String :=
  match t.equation.difference.degree? with
  | none => "none"
  | some d => Rational.text d

end Trail

end ExactAlgebra
