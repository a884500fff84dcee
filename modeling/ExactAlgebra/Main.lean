import ExactAlgebra.Command.Run
import Std.Time.Format

/-!
# The program

One command is run for the arguments of the command line. The database is in the directory that the
environment names, or else in `data`; a file that a command reads or writes is found by its path.

## Main definitions

* `Program.load`, `Program.save` — the workspace of a command, read before it and written behind it;
* `main` — the run of a command.
-/

open ExactAlgebra

namespace ExactAlgebra.Program

/-- The directory of the database. -/
def dataDirectory : IO String := do
  return ((← IO.getEnv "EXACTSOLVER_DATA_DIR").getD "data")

/-- The text of a file, unless it cannot be read. -/
def readFile? (path : String) : IO (Option String) := do
  try
    return some (← IO.FS.readFile path)
  catch _ =>
    return none

/-- A new id, and the time. -/
def newStamp : IO Stamp := do
  let bytes ← IO.getRandomBytes 16
  let time ← Std.Time.PlainDateTime.now
  let instant ← Std.Time.Timestamp.now
  return {
    id := idOfBytes bytes.toList
    timestamp := time.format "uuuu-MM-dd HH:mm:ss"
    epoch := Binary64.ofDecimal false instant.toNanosecondsSinceUnixEpoch.val.toNat (-9) }

/-- **The workspace of a command**: the database, and the file that the command reads. The file that
it writes is there too, so that it can be written wherever it is. -/
def load (directory : String) (command : Option Command) : IO Workspace := do
  let store ← readFile? (directory ++ "/" ++ Workspace.storeName)
  let source ← match command.bind Command.source? with
    | some path => do
      let content ← readFile? path
      pure (content.map fun content => (path, content)).toList
    | none => pure []
  let target := (command.bind Command.target?).map fun path => (path, "")
  return ⟨(store.map StoreFile.text).getD .absent, source ++ target.toList⟩

/-- **Writes the database**, if it has changed. -/
def save (directory : String) (before after : Workspace) : IO Unit := do
  if let .text content := after.store then
    if after.store ≠ before.store then
      IO.FS.createDirAll directory
      IO.FS.writeFile (directory ++ "/" ++ Workspace.storeName) content

/-- Writes the file that a command was to write, and tells whether this is possible. -/
def writeTarget (w : Workspace) (path : String) : IO Bool := do
  try
    IO.FS.writeFile path ((w.content? path).getD "")
    return true
  catch _ =>
    return false

/-- The report of a command, after its file was written. -/
def written (line : String) (command : Option Command) (report : Command.Report)
    (w : Workspace) : IO Command.Report := do
  match command.bind Command.target? with
  | none => return report
  | some path =>
    if report.exit ≠ 0 then return report
    else if ← writeTarget w path then return report
    else return Command.failureReport line (.noFile (Text.quoted path))

/-- Prints a report, and answers its exit code. -/
def printReport (report : Command.Report) : IO UInt32 := do
  IO.print report.output
  IO.eprint report.errors
  return report.exit.toUInt32

end ExactAlgebra.Program

open ExactAlgebra.Program

/-- **Runs the command of the command line.** -/
def main (arguments : List String) : IO UInt32 := do
  let directory ← dataDirectory
  let command := ((Invocation.read arguments).toOption).map (·.command)
  let before ← load directory command
  let (result, after) := Command.runArguments before (← newStamp) arguments
  match result with
  | .report report => do
    save directory before after
    printReport (← written (" ".intercalate arguments) command report after)
  | .refused .help => do
    IO.print Command.usage
    return 0
  | .refused .wrong => do
    IO.eprint Command.usage
    return 2
  | .failed e => do
    save directory before after
    IO.eprintln e.message
    return 1
