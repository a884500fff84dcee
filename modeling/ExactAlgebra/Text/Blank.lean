/-!
# Blank characters

The characters that separate words: the twenty-five code points of the Unicode property
*White_Space*, and the four information separators `U+001C … U+001F`. Rationals, matrices, equations
and names are all trimmed by this one class, so a no-break space or an ideographic space around a
number is as good as an ordinary one. Around a whole number the information separators are not
blanks.

## Main definitions

* `isBlank` — the class itself, and `isSeparator` — the information separators in it;
* `trimStart`, `trim` — a text without the blanks at its start, or at both ends;
* `stripped` — a text without the characters of a class at its ends.
-/

namespace ExactAlgebra.Text

/-- **Blank characters** — tabs and line ends, the information separators, the space, and the spaces
and separators beyond ASCII. -/
def isBlank (c : Char) : Bool :=
  let n := c.toNat
  (9 ≤ n && n ≤ 13) || (28 ≤ n && n ≤ 32) || n == 0x85 || n == 0xA0 || n == 0x1680
    || (0x2000 ≤ n && n ≤ 0x200A) || n == 0x2028 || n == 0x2029 || n == 0x202F
    || n == 0x205F || n == 0x3000

/-- The information separators, which part files, groups, records and units. -/
def isSeparator (c : Char) : Bool :=
  28 ≤ c.toNat && c.toNat ≤ 31

/-- Every blank of the core library's ASCII class is a blank here. -/
theorem isBlank_of_isWhitespace {c : Char} (h : c.isWhitespace = true) : isBlank c = true := by
  simp only [Char.isWhitespace, Bool.or_eq_true, decide_eq_true_eq] at h
  rcases h with ((h | h) | h) | h <;> subst h <;> decide

/-- The characters from the first one that is not blank. -/
def trimStart (cs : List Char) : List Char :=
  cs.dropWhile isBlank

/-- The characters from the first to the last one that is not in a class. -/
def stripped (inClass : Char → Bool) (cs : List Char) : List Char :=
  ((cs.dropWhile inClass).reverse.dropWhile inClass).reverse

/-- **The text without the blanks at its two ends.** -/
def trim (text : String) : String :=
  String.ofList (stripped isBlank text.toList)

end ExactAlgebra.Text
