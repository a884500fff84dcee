import ExactAlgebra.Rational.Basic

/-!
# Cells

What can be entered as an entry of a matrix or a vector. Exact numbers and their texts are accepted;
truth values, rounded numbers and everything else are refused, because the library would have to
guess what they mean.

## Main definitions

* `Cell` — something entered;
* `Cell.value` — the number it denotes, or the reason why it denotes none.
-/

namespace ExactAlgebra

/-- **Something entered as a number.** Values that are refused are kept by their text. -/
inductive Cell where
  | number (value : Rat)
  | text (spelling : String)
  | truth (shown : String)
  | inexact (shown : String)
  deriving DecidableEq

namespace Cell

/-- **The number that a cell denotes.** -/
def value : Cell → Except Error Rat
  | number q => .ok q
  | text s => Rational.parse s
  | truth shown => .error (.truthValue shown)
  | inexact shown => .error (.notExact shown)

/-- The numbers of several cells; the first one that is refused decides. -/
def values (cells : List Cell) : Except Error (List Rat) :=
  cells.mapM value

end Cell

end ExactAlgebra
