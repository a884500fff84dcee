import ExactAlgebra.Json.Print
import ExactAlgebra.Error
import ExactAlgebra.Text.Blank
import ExactAlgebra.Text.Capital

/-!
# Levels of logging

How much is logged is a number; the usual ones have names. A name may be written in lower case and
with blanks around it.

## Main definitions

* `logLevels` — the names with their numbers;
* `logLevel` — the number that is meant by a value, `none` for the absence of one.
-/

namespace ExactAlgebra

open ExactAlgebra.Text

/-- **The names of levels.** -/
def logLevels : List (String × Int) :=
  [("CRITICAL", 50), ("FATAL", 50), ("ERROR", 40), ("WARN", 30), ("WARNING", 30), ("INFO", 20),
   ("DEBUG", 10), ("NOTSET", 0)]

/-- The number of a named level. -/
def namedLevel (name : String) : Except Error Int :=
  match logLevels.find? (·.1 = inCapitals (trim name)) with
  | some level => .ok level.2
  | none => .error (.unknownLevel name)

/-- **The level that is meant by a value**: a name or a number, or nothing. -/
def logLevel : Json → Except Error (Option Int)
  | .string name => (namedLevel name).map some
  | .int n => .ok (some n)
  | .bool b => .ok (some (if b then 1 else 0))
  | .null => .ok none
  | value => .error (.unusableValue ("Level not an integer or a valid string: " ++ value.shown))

end ExactAlgebra
