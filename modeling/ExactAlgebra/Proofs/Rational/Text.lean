import ExactAlgebra.Proofs.Text.Numeral
import ExactAlgebra.Rational.Integer

/-!
# Numbers read back

The text of an integer is a sign and a numeral, the text of a rational is one integer, or two that
are parted by a slash. Reading such a text gives the number that was written.

## Main statements

* `Text.readInt?_intText`, `readInt_intText` — integers;
* `Rational.parse_text` — rationals.
-/

namespace ExactAlgebra

namespace Text

/-! ## Integers -/

/-- The digits of a number are read as its digits, with nothing left over. -/
theorem digitGroup_natChars (n : Nat) {rest : List Char} (ends : EndsNumeral rest) :
    digitGroup (natChars n ++ rest) = some (digitValues (natChars n), rest) :=
  digitGroup_digits (natChars_ne_nil n) (fun _ mem => isDigit_natChars mem) ends

/-- Numerals have no sign of their own. -/
theorem sign_natChars (n : Nat) (rest : List Char) :
    sign (natChars n ++ rest) = (false, natChars n ++ rest) := by
  cases written : natChars n with
  | nil => exact absurd written (natChars_ne_nil n)
  | cons c cs =>
    have digit : isDigit c = true := by
      apply isDigit_natChars (n := n)
      rw [written]
      exact List.mem_cons_self
    rw [List.cons_append, Rational.sign_of_isDigit digit]

/-- **The sign of an integer** is read in front of its digits. -/
theorem sign_intChars (n : Int) (rest : List Char) :
    sign (intChars n ++ rest) = (decide (n < 0), natChars n.natAbs ++ rest) := by
  rw [intChars]
  split
  · rename_i negative
    simp [sign, negative]
  · rename_i positive
    simp [sign_natChars, positive]

/-- Sign and digits make up the integer. -/
theorem signedInt_natChars (n : Int) :
    signedInt (decide (n < 0)) (digitValues (natChars n.natAbs)) = n := by
  rw [signedInt, ofDigits_natChars]
  by_cases negative : n < 0
  · rw [if_pos (decide_eq_true negative)]
    omega
  · rw [if_neg (by simp [negative])]
    omega

/-- **A character of an integer** is a minus sign or a digit. -/
theorem mem_intChars {n : Int} {c : Char} (mem : c ∈ intChars n) : c = '-' ∨ isDigit c = true := by
  rw [intChars] at mem
  split at mem
  · rcases List.mem_cons.mp mem with rfl | mem
    · exact .inl rfl
    · exact .inr (isDigit_natChars mem)
  · exact .inr (isDigit_natChars mem)

theorem isBlank_of_mem_intChars {n : Int} {c : Char} (mem : c ∈ intChars n) :
    isBlank c = false := by
  rcases mem_intChars mem with rfl | digit
  · decide
  · exact Rational.isBlank_of_isDigit digit

/-- A text keeps its ends if none of its characters is in the class. -/
theorem stripped_of_none {inClass : Char → Bool} {cs : List Char}
    (none : ∀ c ∈ cs, inClass c = false) : stripped inClass cs = cs := by
  have keep (cs : List Char) (none : ∀ c ∈ cs, inClass c = false) : cs.dropWhile inClass = cs := by
    match cs with
    | [] => rfl
    | c :: cs => rw [List.dropWhile_cons_of_neg (by simp [none c List.mem_cons_self])]
  rw [stripped, keep cs none, keep, List.reverse_reverse]
  intro c mem
  exact none c (List.mem_reverse.mp mem)

/-- **The text of an integer** denotes it. -/
theorem readInt?_intText (n : Int) : readInt? (intText n) = some n := by
  have bare : stripped surroundsInt (intChars n) = intChars n := by
    apply stripped_of_none
    intro c mem
    rw [surroundsInt, isBlank_of_mem_intChars mem, Bool.false_and]
  have signed := sign_intChars n []
  have digits := digitGroup_natChars n.natAbs endsNumeral_nil
  rw [List.append_nil] at signed digits
  rw [List.append_nil] at signed
  simp only [readInt?, intText, String.toList_ofList, bare, signed, digits, signedInt_natChars]

/-- The text of a natural number is that of an integer. -/
theorem intText_natCast (n : Nat) : intText n = natText n := by
  rw [intText, intChars, if_neg (by omega), Int.natAbs_natCast, natText]

theorem readInt?_natText (n : Nat) : readInt? (natText n) = some (n : Int) := by
  rw [← intText_natCast, readInt?_intText]

end Text

open Text

theorem readInt_intText (n : Int) : readInt (intText n) = .ok n := by
  rw [readInt, readInt?_intText]

namespace Rational

/-! ## Rationals -/

/-- The denominator of a rational, behind a slash, or nothing for an integer. -/
def denominatorChars (q : ℚ) : List Char :=
  if q.den = 1 then [] else '/' :: natChars q.den

theorem chars_eq_append (q : ℚ) : chars q = intChars q.num ++ denominatorChars q := by
  rw [chars, denominatorChars]
  split
  · rw [List.append_nil]
  · rfl

/-- What is read behind the numerator of a rational. -/
def denominatorTail (q : ℚ) : Tail :=
  if q.den = 1 then .decimal [] 0 else .fraction (digitValues (natChars q.den))

theorem tailOf_denominatorChars (q : ℚ) :
    tailOf (denominatorChars q) = some (denominatorTail q, []) := by
  rw [denominatorChars, denominatorTail]
  split
  · rfl
  · have digits := digitGroup_natChars q.den endsNumeral_nil
    rw [List.append_nil] at digits
    rw [tailOf, digits, Option.map_some]

theorem value?_chars (q : ℚ) :
    Notation.value? ⟨decide (q.num < 0), digitValues (natChars q.num.natAbs), denominatorTail q⟩ =
      some q := by
  rw [denominatorTail]
  split
  · rename_i whole
    simp only [Notation.value?, List.append_nil, List.length_nil, signedInt_natChars]
    simpa [tenPow] using Rat.coe_int_num_of_den_eq_one whole
  · simp only [Notation.value?, ofDigits_natChars, if_neg q.den_ne_zero, signedInt_natChars]
    rw [Rat.num_div_den]

/-- **A character of a rational** is a sign, a slash or a digit. -/
theorem mem_chars {q : ℚ} {c : Char} (mem : c ∈ chars q) :
    c = '-' ∨ c = '/' ∨ isDigit c = true := by
  rw [chars_eq_append, List.mem_append, denominatorChars] at mem
  rcases mem with mem | mem
  · exact (mem_intChars mem).imp_right .inr
  · split at mem
    · cases mem
    · rcases List.mem_cons.mp mem with rfl | mem
      · exact .inr (.inl rfl)
      · exact .inr (.inr (isDigit_natChars mem))

theorem isBlank_of_mem_chars {q : ℚ} {c : Char} (mem : c ∈ chars q) : isBlank c = false := by
  rcases mem_chars mem with rfl | rfl | digit
  · decide
  · decide
  · exact isBlank_of_isDigit digit

theorem toList_text (q : ℚ) : (text q).toList = chars q :=
  String.toList_ofList

theorem chars_ne_nil (q : ℚ) : chars q ≠ [] := by
  rw [chars_eq_append, intChars]
  split <;> simp [natChars_ne_nil]

theorem ofChars?_chars (q : ℚ) : Notation.ofChars? (chars q) =
    some ⟨decide (q.num < 0), digitValues (natChars q.num.natAbs), denominatorTail q⟩ := by
  have bare : trimStart (chars q) = chars q := by
    cases written : chars q with
    | nil => rfl
    | cons c cs =>
      have mem : c ∈ chars q := by
        rw [written]
        exact List.mem_cons_self
      rw [trimStart, List.dropWhile_cons_of_neg (by simp [isBlank_of_mem_chars mem])]
  have ends : EndsNumeral (denominatorChars q) := by
    rw [denominatorChars]
    split
    · exact endsNumeral_nil
    · rintro c ⟨⟩
      exact ⟨digitValue?_below (by decide), by decide⟩
  have front : leading (natChars q.num.natAbs ++ denominatorChars q) =
      some (digitValues (natChars q.num.natAbs), denominatorChars q) := by
    unfold leading
    rw [digitGroup_natChars _ ends]
  unfold Notation.ofChars?
  rw [bare, chars_eq_append, sign_intChars]
  simp only [front, tailOf_denominatorChars, trimStart, List.dropWhile_nil, Option.bind_eq_bind,
    Option.bind_some]
  rfl

/-- **The text of a rational** denotes it. -/
theorem parse_text (q : ℚ) : parse (text q) = .ok q := by
  have noSpace : (chars q).filter (· ≠ ' ') = chars q := by
    rw [List.filter_eq_self]
    intro c mem
    rw [decide_eq_true_eq]
    rintro rfl
    exact absurd (isBlank_of_mem_chars mem) (by decide)
  rw [parse, toList_text, noSpace]
  simp only [if_neg (chars_ne_nil q), ofChars?_chars, value?_chars]

end Rational

end ExactAlgebra
