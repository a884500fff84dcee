import ExactAlgebra.Error
import ExactAlgebra.Text.Quoted

/-!
# Integers from text

The integer of a text, or a message that quotes the text. Long texts are cut off in the message.

## Main definitions

* `readInt` — the integer that a text denotes.
-/

namespace ExactAlgebra

open ExactAlgebra.Text

/-- The greatest number of characters of a quoted text in a message. -/
def quotedLimit : Nat :=
  200

/-- **The integer that a text denotes.** -/
def readInt (s : String) : Except Error Int :=
  match readInt? s with
  | some n => .ok n
  | none => .error (.notInteger (String.ofList ((quoted s).toList.take quotedLimit)))

end ExactAlgebra
