import ExactAlgebra.Command.Basic
import ExactAlgebra.Command.LogLevel
import ExactAlgebra.Equation.Trail
import ExactAlgebra.Matrix.Spectrum
import ExactAlgebra.Store.History
import ExactAlgebra.Store.NamedResult
import ExactAlgebra.System.Span

/-!
# Running commands

A command is run in a workspace. Its answer is printed, and goes into the history if it is the
answer of a computation. What fails is reported in the words of the library, if these are meant for
the person who typed the command; otherwise an explanation is put around them.

## Main definitions

* `Command.answer` — the answer of a command, and the workspace that it leaves;
* `Report`, `RunResult` — what a run prints, and how else it can end;
* `Command.runArguments` — a run from the arguments of a command line.
-/

namespace ExactAlgebra

open ExactAlgebra.Text

namespace Command

/-! ## Answers of computations -/

/-- The text of an operand. -/
def Operand.text : Operand → Except Error String
  | given s => .ok s
  | nothing => .error (.noSuchPart "'list' object has no attribute 'strip'")

/-- The matrix of an operand. -/
def Operand.matrix (operand : Operand) : Except Error Mat := do
  Mat.parse (← operand.text)

/-- Whether steps are to be shown. -/
def showsSteps (steps : Bool) (settings : Settings) : Bool :=
  steps || (settings.value "show_steps").isTruthy

/-- A step of a trail as it is printed. -/
def trailLine (number : Nat) (step : TrailStep) : String :=
  "Step " ++ natText number ++ ": " ++ step.description ++ "\n    " ++ step.expression

/-- The steps of a trail, numbered from `n` on. -/
def trailLines (n : Nat) : List TrailStep → List String
  | [] => []
  | step :: rest => trailLine n step :: trailLines (n + 1) rest

/-- The answer of `solve`. -/
def solveAnswer (equation : String) (steps : Bool) (settings : Settings) :
    Except Error String := do
  let trail ← Trail.ofText equation
  if showsSteps steps settings then
    return "\n".intercalate (trailLines 1 trail.steps ++ ["Answer: " ++ trail.answer])
  else return trail.answer

/-- The result of an operation as something that can be kept. -/
def storable : Outcome → Result
  | .matrix a => .matrix a
  | .number q => .scalar q
  | .count n => .scalar n

/-- The answer of `matrix`; the result is kept if a name is given. -/
def matrixAnswer (w : Workspace) (settings : Settings) (op : Operation) (a : Mat) (steps : Bool)
    (strategy name : Option String) : Except Error (String × Workspace) := do
  let strategy := strategy.getD (settings.value "expansion_strategy").plain
  let outcome ← op.result strategy a
  let kept ← match name with
    | some name => w.save name (storable outcome)
    | none => pure w
  if showsSteps steps settings && op.isJournaled then
    let journal ← op.journal strategy a
    return (journal.text ++ "\n\nResult:\n" ++ outcome.text, kept)
  else return (outcome.text, kept)

/-- The answer of `system`. -/
def systemAnswer (coefficients right : Operand) : Except Error String := do
  let a ← coefficients.matrix
  let b ← Vec.parse (← right.text)
  let (solution, _) ← solveSystem a b.toColumn
  return solution.description

/-- The answer of `eigen`. -/
def eigenvaluesAnswer (a : Mat) : Except Error String := do
  let roots ← a.eigenvalues
  let polynomial ← a.characteristicPolynomial "x"
  return "det(xI - A) = " ++ polynomial.text ++ "\neigenvalues: "
    ++ ", ".intercalate (roots.map (·.text))

/-- A representation in words. -/
def representationText (label : String) (r : Representation) : String :=
  match r.coefficients with
  | none => label ++ ": no"
  | some weights =>
    label ++ ": yes (" ++ (if r.unique then "unique" else "free weights set to 0") ++ ")\n"
      ++ weights.text

/-- The answer of `vecset`. -/
def comparisonAnswer (a b : Mat) : Except Error String := do
  let c ← compareSpans a b
  return "\n".intercalate
    [representationText "A represents B" c.firstRepresentsSecond,
     representationText "B represents A" c.secondRepresentsFirst,
     "equivalent: " ++ (if c.equivalent then "yes" else "no")]

/-! ## Answers from the store -/

/-- Says that nothing is kept under a name, where that is what went wrong. -/
def orNothingSaved {α : Type} (name : String) (r : Except Error α) : Except Error α :=
  match r with
  | .error (.nothingStored _) => .error (.nothingSaved name)
  | other => other

/-- Says that there is no such record, where that is what went wrong. -/
def orNoHistoryEntry {α : Type} (start : String) (r : Except Error α) : Except Error α :=
  match r with
  | .ok a => .ok a
  | .error e => if e.kind = .missingKey then .error (.noHistoryEntry start) else .error e

/-- The beginning of an id, as it is shown. -/
def shortId (id : String) : String :=
  String.ofList (id.toList.take 8)

/-- The beginning of a stored id, as it is shown. -/
def shortIdText : Json → Except Error String
  | .string id => .ok (shortId id)
  | .array items => .ok (Json.array (items.take 8)).shown
  | .object _ => .error (.unusableValue "unhashable type: 'slice'")
  | value => .error (noMembers value)

/-- The line of a record. -/
def historyLine (record : Json) : Except Error String := do
  let pinned ← recordMember "pinned" record
  let id ← shortIdText (← recordMember "id" record)
  let timestamp ← recordMember "timestamp" record
  let command ← recordMember "command" record
  let answer ← recordMember "answer" record
  return (if pinned.isTruthy then "*" else " ") ++ " " ++ id ++ "  " ++ timestamp.plain ++ "  "
    ++ command.plain ++ "  ->  " ++ answer.plain

/-- The answer of `history`. -/
def historyAnswer (w : Workspace) : HistoryAction → Except Error (String × Workspace)
  | .list => do
    let records ← w.recordsByPin
    if records.isEmpty then return ("No history yet.", w)
    return ("\n".intercalate (← records.mapM historyLine), w)
  | .pin start => do
    let id ← orNoHistoryEntry start (w.findRecord start)
    let (pinned, changed) ← w.togglePin id
    return ((if pinned then "Pinned " else "Unpinned ") ++ shortId id ++ ".", changed)
  | .delete start => do
    let id ← orNoHistoryEntry start (w.findRecord start)
    let changed ← w.deleteRecord id
    return ("Deleted " ++ shortId id ++ ".", changed)
  | .clear => .ok ("History cleared.", w.clearHistory)

/-- The answer of `export`. -/
def exportAnswer (w : Workspace) (path : String) (table : Option String) :
    Except Error (String × Workspace) :=
  match table with
  | none => do
    let (count, written) ← w.exportAll path
    return ("Exported " ++ natText count ++ " result(s).", written)
  | some name => do
    let written ← orNothingSaved name (w.exportTable name path)
    return ("Wrote " ++ name ++ " to " ++ path ++ ".", written)

/-! ## Runs -/

/-- **The answer of a command**, and the workspace that it leaves. -/
def answer (w : Workspace) (settings : Settings) :
    Command → Except Error (String × Workspace)
  | simplify expression => do return (← simplifyText (← expression.text), w)
  | factor expression => do return (← factorText (← expression.text), w)
  | solve equation steps => do return (← solveAnswer (← equation.text) steps settings, w)
  | matrix op a steps strategy name => do
    matrixAnswer w settings op (← a.matrix) steps strategy name
  | system coefficients right => do return (← systemAnswer coefficients right, w)
  | eigenvalues a => do return (← eigenvaluesAnswer (← a.matrix), w)
  | compare first second => do
    let a ← first.matrix
    let b ← second.matrix
    return (← comparisonAnswer a b, w)
  | display name => do
    let name ← name.text
    return ((← orNothingSaved name (w.load name)).display, w)
  | names => .ok ((nonempty? ("\n".intercalate w.names)).getD "No saved results.", w)
  | history action => historyAnswer w action
  | exportResults path table => do exportAnswer w (← path.text) table
  | importResults path => do
    let (count, changed) ← w.importAll (← path.text)
    return ("Imported " ++ natText count ++ " result(s).", changed)

/-- **What a run prints**, and its exit code. -/
structure Report where
  exit : Nat
  output : String
  errors : String
  deriving DecidableEq

/-- **How a run ends**: with a report, with a refusal of its arguments, or with a failure outside of
the command. -/
inductive RunResult where
  | report (report : Report)
  | refused (refusal : Refusal)
  | failed (cause : Error)

/-- A cause, as it stands inside an explanation. -/
def details (e : Error) : String :=
  if e.kind = .missingKey then quoted e.message else e.message

/-- **The report of a failure** to the person who typed the command. -/
def failureText (line : String) (e : Error) : String :=
  if e.isReported then e.message
  else
    "ExactSolver could not process \"" ++ line ++ "\".\n"
      ++ "Expressions use one variable, e.g.  x^2 - 5x + 6 = 0 ;  "
      ++ "matrices are written as  [1, 2; 3, 4].\n"
      ++ "Details: " ++ details e

/-- The report of a run that has failed. -/
def failureReport (line : String) (e : Error) : Report :=
  ⟨1, "", failureText line e ++ "\n"⟩

/-- The level of logging that a run asks for: the one of the command line, or else the one of the
settings. -/
def levelOf (given : Option String) (settings : Settings) : Json :=
  match nonempty? given with
  | some level => .string level
  | none => settings.value "log_level"

/-- Puts the answer of a computation into the history. -/
def recordAnswer (w : Workspace) (stamp : Stamp) (line : String) (command : Command)
    (answer : String) : Except Error Workspace :=
  if command.isRecorded then w.addRecord stamp line answer else .ok w

/-- **Runs a command.** `line` is the command line as one text. -/
def run (w : Workspace) (stamp : Stamp) (line : String) (invocation : Invocation) :
    RunResult × Workspace :=
  match logLevel (levelOf invocation.logLevel w.settings) with
  | .error e => (.failed e, w)
  | .ok _ =>
    match invocation.command.answer w w.settings with
    | .error e => (.report (failureReport line e), w)
    | .ok (answer, changed) =>
      match recordAnswer changed stamp line invocation.command answer with
      | .error e => (.failed e, changed)
      | .ok recorded => (.report ⟨0, answer ++ "\n", ""⟩, recorded)

/-- **Runs the command of a command line.** -/
def runArguments (w : Workspace) (stamp : Stamp) (arguments : List String) :
    RunResult × Workspace :=
  match Invocation.read arguments with
  | .error refusal => (.refused refusal, w)
  | .ok invocation => run w stamp (" ".intercalate arguments) invocation

end Command

end ExactAlgebra
