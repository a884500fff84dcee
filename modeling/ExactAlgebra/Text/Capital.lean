/-!
# Capitals

A text in capital letters, as far as these are ASCII. Besides the ASCII letters there are ten
characters with such capitals: the sharp s, the dotless i, the long s, and seven ligatures.

## Main definitions

* `capitals` — the capitals of a character;
* `inCapitals` — a text in capitals.
-/

namespace ExactAlgebra.Text

/-- The characters beyond ASCII with ASCII capitals. -/
def specialCapitals : List (Char × List Char) :=
  [('ß', ['S', 'S']), ('ı', ['I']), ('ſ', ['S']), ('ﬀ', ['F', 'F']), ('ﬁ', ['F', 'I']),
   ('ﬂ', ['F', 'L']), ('ﬃ', ['F', 'F', 'I']), ('ﬄ', ['F', 'F', 'L']), ('ﬅ', ['S', 'T']),
   ('ﬆ', ['S', 'T'])]

/-- The capitals of a character. -/
def capitals (c : Char) : List Char :=
  match specialCapitals.find? (·.1 = c) with
  | some entry => entry.2
  | none => [c.toUpper]

/-- **The text in capitals.** -/
def inCapitals (text : String) : String :=
  String.ofList (text.toList.flatMap capitals)

example : inCapitals "poſt" = "POST" := by decide +kernel

end ExactAlgebra.Text
