import ExactAlgebra.Command.Run
import ExactAlgebra.Numbered.Operation
import ExactAlgebra.Store.Session

/-!
# Runs step by step

A run as it is carried out: load the settings, set the level of logging, carry out the command, and
print its answer or what is wrong. A command can change the workspace before it fails, and so can a
run; and what was printed stays printed. A result is kept under its name before the answer is put
into words, and the answer is printed before it goes into the history.

## Main definitions

* `Session.relabeled` — steps whose failures are put in other words;
* `Command.steps` — the steps of a command;
* `Terminal`, `Dialogue` — steps that can print, with `Dialogue.run`;
* `Command.dialogue` — the steps of a run, and `Dialogue.ended` — how it ends.
-/

namespace ExactAlgebra

open ExactAlgebra.Text

/-- Steps whose outcome is put in other words. What they have changed stays changed. -/
def Session.relabeled {α : Type} (words : Except Error α → Except Error α) (steps : Session α) :
    Session α :=
  ExceptT.mk do return words (← ExceptT.run steps)

namespace Command

/-! ## Commands -/

/-- The steps of `matrix`. The result is kept as soon as it is there. -/
def matrixSteps (settings : Settings) (op : Operation) (entries : Operand) (steps : Bool)
    (strategy name : Option String) : Session String := do
  let a ← Session.attempt entries.matrix
  let strategy := strategy.getD (settings.value "expansion_strategy").plain
  let before := if showsSteps steps settings && op.isJournaled then some [] else none
  let (outcome, journal) ← Session.attempt (Numbered.perform op strategy a before)
  if let some name := name then
    Session.save name (.result (storable outcome))
  match journal with
  | some journal => return journal.text ++ "\n\nResult:\n" ++ outcome.text
  | none => return outcome.text

/-- The steps of `history`. -/
def historySteps : HistoryAction → Session String
  | .list => do
    let records ← Session.showHistory
    if records.isEmpty then return "No history yet."
    return "\n".intercalate (← Session.attempt (records.mapM historyLine))
  | .pin start => do
    let id ← Session.relabeled (orNoHistoryEntry start) (Session.findRecord start)
    let pinned ← Session.togglePin id
    return (if pinned then "Pinned " else "Unpinned ") ++ shortId id ++ "."
  | .delete start => do
    let id ← Session.relabeled (orNoHistoryEntry start) (Session.findRecord start)
    Session.deleteRecord id
    return "Deleted " ++ shortId id ++ "."
  | .clear => do
    Session.clearHistory
    return "History cleared."

/-- The steps of `export`. -/
def exportSteps (path : String) : Option String → Session String
  | none => do
    let count ← Session.exportAll path
    return "Exported " ++ natText count ++ " result(s)."
  | some name => do
    Session.relabeled (orNothingSaved name) (Session.exportTable name path)
    return "Wrote " ++ name ++ " to " ++ path ++ "."

/-- **The steps of a command**, which yield its answer. -/
def steps (settings : Settings) : Command → Session String
  | simplify expression => Session.attempt do simplifyText (← expression.text)
  | factor expression => Session.attempt do factorText (← expression.text)
  | solve equation steps => Session.attempt do solveAnswer (← equation.text) steps settings
  | matrix op entries steps strategy name => matrixSteps settings op entries steps strategy name
  | system coefficients right => Session.attempt (systemAnswer coefficients right)
  | eigenvalues a => Session.attempt do eigenvaluesAnswer (← a.matrix)
  | compare first second => Session.attempt do comparisonAnswer (← first.matrix) (← second.matrix)
  | display name => do
    let name ← Session.attempt name.text
    let r ← Session.relabeled (orNothingSaved name) do Session.attempt ((← get).load name)
    return r.display
  | names => do
    let names := (← get).names
    return (nonempty? ("\n".intercalate names)).getD "No saved results."
  | history action => historySteps action
  | exportResults path table => do
    let path ← Session.attempt path.text
    exportSteps path table
  | importResults path => do
    let path ← Session.attempt path.text
    let count ← Session.importAll path
    return "Imported " ++ natText count ++ " result(s)."

end Command

/-! ## Dialogues -/

/-- **What a run works on**: a workspace, and what has been printed. -/
structure Terminal where
  workspace : Workspace
  output : String
  errors : String

/-- **Steps that can print.** Those before the one that fails have been carried out. -/
abbrev Dialogue :=
  ExceptT Error (StateM Terminal)

namespace Dialogue

/-- **Carries out the steps.** -/
def run {α : Type} (steps : Dialogue α) (t : Terminal) : Except Error α × Terminal :=
  StateT.run (ExceptT.run steps) t

/-- Steps on the workspace. -/
def onWorkspace {α : Type} (steps : Session α) : Dialogue α :=
  ExceptT.mk do
    let (outcome, next) := Session.run steps (← get).workspace
    modify fun t => { t with workspace := next }
    return outcome

/-- Steps that may fail without ending the others. -/
def tried {α : Type} (steps : Dialogue α) : Dialogue (Except Error α) :=
  ExceptT.mk do return .ok (← ExceptT.run steps)

/-- Prints a line. -/
def say (line : String) : Dialogue Unit :=
  modify fun t => { t with output := t.output ++ line ++ "\n" }

/-- Prints what is wrong. -/
def complain (line : String) : Dialogue Unit :=
  modify fun t => { t with errors := t.errors ++ line ++ "\n" }

/-- How a run ends that answers its exit code. -/
def ended : Except Error Nat × Terminal → Command.RunResult × Workspace
  | (.ok code, t) => (.report ⟨code, t.output, t.errors⟩, t.workspace)
  | (.error e, t) => (.failed e, t.workspace)

end Dialogue

open Dialogue in
/-- **The steps of a run**, which yield its exit code. `line` is the command line as one text. -/
def Command.dialogue (stamp : Stamp) (line : String) (invocation : Invocation) : Dialogue Nat := do
  let settings := (← get).workspace.settings
  let _ ← onWorkspace (Session.attempt (logLevel (levelOf invocation.logLevel settings)))
  match ← tried (onWorkspace (invocation.command.steps settings)) with
  | .error e =>
    complain (failureText line e)
    return 1
  | .ok answer =>
    say answer
    if invocation.command.isRecorded then
      onWorkspace (Session.addRecord stamp line answer)
    return 0

end ExactAlgebra
