import ExactAlgebra.Command.Argument
import ExactAlgebra.Matrix.Operation

/-!
# Commands

The commands with their operands and options, and how they are read from the arguments of a command
line.

## Main definitions

* `Command` — the commands;
* `CommandForm`, `commandForms` — what each of them accepts;
* `Invocation`, `Invocation.read` — a command with the level of logging, and how it is read.
-/

namespace ExactAlgebra

open ExactAlgebra.Command (Operand OptionForm OperandForm Refusal Matched optionValue)

/-- **What is done with the history.** -/
inductive HistoryAction where
  | list
  | pin (start : String)
  | delete (start : String)
  | clear
  deriving DecidableEq

/-- **The commands.** -/
inductive Command where
  | simplify (expression : Operand)
  | factor (expression : Operand)
  | solve (equation : Operand) (steps : Bool)
  | matrix (operation : Operation) (matrix : Operand) (steps : Bool) (strategy : Option String)
      (name : Option String)
  | system (coefficients right : Operand)
  | eigenvalues (matrix : Operand)
  | compare (first second : Operand)
  | display (name : Operand)
  | names
  | history (action : HistoryAction)
  | exportResults (path : Operand) (table : Option String)
  | importResults (path : Operand)
  deriving DecidableEq

namespace Command

/-- Whether the command and its answer go into the history. -/
def isRecorded : Command → Bool
  | simplify _ | factor _ | solve _ _ | matrix _ _ _ _ _ | system _ _ | eigenvalues _
  | compare _ _ => true
  | _ => false

/-- The path of the file that the command reads. -/
def source? : Command → Option String
  | importResults (.given path) => some path
  | _ => none

/-- The path of the file that the command writes. -/
def target? : Command → Option String
  | exportResults (.given path) _ => some path
  | _ => none

/-! ## Forms -/

/-- A text that is not empty. -/
def nonempty? (s : Option String) : Option String :=
  s.filter (· ≠ "")

/-- What is done with the history, given the options. An option with an empty text does nothing. -/
def historyAction (m : Matched) : HistoryAction :=
  match nonempty? (m.value? "--pin"), nonempty? (m.value? "--delete") with
  | some start, _ => .pin start
  | none, some start => .delete start
  | none, none => if m.has "--clear" then .clear else .list

/-- **What a command accepts**, and the command that it makes of it. -/
structure CommandForm where
  name : String
  operands : List OperandForm
  options : List OptionForm
  build : Matched → Option Command

/-- An operand with any value. -/
def anyOperand : OperandForm :=
  ⟨[]⟩

/-- An option that is set. -/
def flag (spelling : String) : OptionForm :=
  ⟨spelling, .flag, false⟩

/-- An option with any value. -/
def valued (spelling : String) : OptionForm :=
  ⟨spelling, .value [], false⟩

/-- The form of a command with one operand and no options. -/
def simpleForm (name : String) (build : Operand → Command) : CommandForm where
  name := name
  operands := [anyOperand]
  options := []
  build := fun m =>
    match m.operands with
    | [operand] => some (build operand)
    | _ => none

/-- The form of a command with two operands and no options. -/
def pairForm (name : String) (build : Operand → Operand → Command) : CommandForm where
  name := name
  operands := [anyOperand, anyOperand]
  options := []
  build := fun m =>
    match m.operands with
    | [first, second] => some (build first second)
    | _ => none

/-- The form of `solve`. -/
def solveForm : CommandForm where
  name := "solve"
  operands := [anyOperand]
  options := [flag "--steps"]
  build := fun m =>
    match m.operands with
    | [equation] => some (.solve equation (m.has "--steps"))
    | _ => none

/-- The form of `matrix`. -/
def matrixForm : CommandForm where
  name := "matrix"
  operands := [⟨Operation.all.map Operation.name⟩, anyOperand]
  options :=
    [flag "--steps",
     ⟨"--strategy", .value [Strategy.firstRow.name, Strategy.sparsest.name], false⟩,
     valued "--save"]
  build := fun m =>
    match m.operands with
    | [.given name, entries] =>
      (Operation.ofName? name).map fun op =>
        .matrix op entries (m.has "--steps") (m.value? "--strategy")
          (nonempty? (m.value? "--save"))
    | _ => none

/-- The form of `history`. -/
def historyForm : CommandForm where
  name := "history"
  operands := []
  options :=
    [⟨"--pin", .value [], true⟩, ⟨"--delete", .value [], true⟩, ⟨"--clear", .flag, true⟩]
  build := fun m => some (.history (historyAction m))

/-- The form of `export`. -/
def exportForm : CommandForm where
  name := "export"
  operands := [anyOperand]
  options := [valued "--csv"]
  build := fun m =>
    match m.operands with
    | [path] => some (.exportResults path (nonempty? (m.value? "--csv")))
    | _ => none

/-- The form of `vars`. -/
def namesForm : CommandForm where
  name := "vars"
  operands := []
  options := []
  build := fun _ => some .names

/-- **The forms of all commands.** -/
def commandForms : List CommandForm :=
  [simpleForm "simplify" .simplify, simpleForm "factor" .factor, solveForm, matrixForm,
   pairForm "system" .system, simpleForm "eigen" .eigenvalues, pairForm "vecset" .compare,
   simpleForm "show" .display, namesForm, historyForm, exportForm,
   simpleForm "import" .importResults]

/-- How a command is given. -/
def usage : String :=
  "usage: [--log-level LEVEL] COMMAND ...\ncommands: "
    ++ ", ".intercalate (commandForms.map (·.name)) ++ "\n"

/-- The command of the arguments behind its name. -/
def CommandForm.read (form : CommandForm) (arguments : List String) : Except Refusal Command := do
  let words ← classifyAll (helpOptions ++ form.options) arguments
  let m ← matchWords form.operands [] words
  if m.surplus then throw .wrong
  match form.build m with
  | some command => return command
  | none => throw .wrong

end Command

/-! ## Invocations -/

/-- **A command**, with the level of logging if one was asked for. -/
structure Invocation where
  logLevel : Option String
  command : Command
  deriving DecidableEq

namespace Invocation

open Command

/-- The options in front of the name of a command. -/
def generalOptions : List OptionForm :=
  helpOptions ++ [valued "--log-level"]

/-- The command with the given name and arguments. -/
def readCommand (logLevel : Option String) (name : String) (arguments : List String) :
    Except Refusal Invocation :=
  match commandForms.find? (·.name = name) with
  | some form => (form.read arguments).map fun command => ⟨logLevel, command⟩
  | none => .error .wrong

/-- Reads words up to the name of a command, together with the arguments they came from. What does
not belong in front of the name is refused, but only after the command was read, so that a request
for help in it counts. -/
def readWords (logLevel : Option String) : List (Word × String) → Except Refusal Invocation
  | [] => .error .wrong
  | (.unknown, _) :: rest => (readWords logLevel rest).bind fun _ => .error .wrong
  | (.separator, _) :: _ => .error .wrong
  | (.operand name, _) :: rest => readCommand logLevel name (rest.map (·.2))
  | (.option form attached, _) :: (.operand s, _) :: rest =>
    if needsOperand form attached then do
      checkOption [] form (some s)
      readWords (optionValue s) rest
    else do
      checkOption [] form attached
      readCommand (attached.bind optionValue) s (rest.map (·.2))
  | (.option form attached, _) :: rest => do
    checkOption [] form attached
    readWords (attached.bind optionValue) rest

/-- **Reads the arguments of a command line.** -/
def read (arguments : List String) : Except Refusal Invocation := do
  let words ← classifyAll generalOptions arguments
  readWords none (words.zip arguments)

end Invocation

end ExactAlgebra
