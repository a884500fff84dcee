/-!
# Splitting and replacing

Texts are cut at every occurrence of a separator, from left to right and without overlaps. Replacing
is cutting at the old text and joining with the new.

## Main definitions

* `splitOn` — the parts between the separators, at least one;
* `replace` — writes one text for another.
-/

namespace ExactAlgebra.Text

/-- The parts of a text from the character after `skip` more of a separator on; `part` holds the
part that is being read, in reverse. -/
def splitFrom (sep : List Char) (skip : Nat) (part : List Char) : List Char → List (List Char)
  | [] => [part.reverse]
  | c :: rest =>
    match skip with
    | skip + 1 => splitFrom sep skip part rest
    | 0 =>
      if sep ≠ [] ∧ sep.isPrefixOf (c :: rest) then
        part.reverse :: splitFrom sep (sep.length - 1) [] rest
      else splitFrom sep 0 (c :: part) rest

/-- **The parts of a text between the separators.** -/
def splitOn (sep text : String) : List String :=
  (splitFrom sep.toList 0 [] text.toList).map String.ofList

/-- **The text with `new` written for every `old`.** -/
def replace (old new text : String) : String :=
  new.intercalate (splitOn old text)

example : splitOn "==" "a===b" = ["a", "=b"] := by decide +kernel
example : splitOn "=" "" = [""] := by decide +kernel

end ExactAlgebra.Text
