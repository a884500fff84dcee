import ExactAlgebra.Json.Parse
import ExactAlgebra.Proofs.Json.Number

/-!
# Tokens, read back

Every token of a printed value is read as the token it is, with the rest of the text left over.
Words and numbers are read up to a comma or a line end; a string ends at its quote, because every
other quote in it is escaped.

## Main statements

* `stringBody?_escaped` — the characters of a string;
* `token?_string`, `token?_int`, `token?_float` — strings and numbers.

## Main definitions

* `EndsValue` — what follows a value in a file.
-/

namespace ExactAlgebra.Json

open ExactAlgebra.Text
open ExactAlgebra.Binary64

/-! ## Strings -/

/-- Characters that have been read already are skipped. -/
theorem stringBody?_skip (skip : ℕ) (read cs : List Char) :
    stringBody? skip read cs = stringBody? 0 read (cs.drop skip) := by
  induction cs generalizing skip with
  | nil => cases skip <;> rfl
  | cons c rest ih =>
    cases skip with
    | zero => rfl
    | succ skip => exact ih skip

theorem hexValue?_hexDigit {d : ℕ} (digit : d < 16) : hexValue? (hexDigit d) = some d := by
  have table : ∀ d < 16, hexValue? (hexDigit d) = some d := by decide
  exact table d digit

/-- **Four hexadecimal digits** denote the number that was written. -/
theorem escapedUnit?_hexDigits {n : ℕ} (small : n < 65536) (rest : List Char) :
    escapedUnit? ('\\' :: 'u' :: (hexDigits 4 n ++ rest)) = some n := by
  have digit (k : ℕ) : hexValue? (hexDigit (k % 16)) = some (k % 16) :=
    hexValue?_hexDigit (Nat.mod_lt k (by omega))
  simp only [hexDigits, List.nil_append, List.cons_append, escapedUnit?, codeUnit?, digit, bind,
    Option.bind, pure]
  congr 1
  omega

/-- A letter behind a backslash is read as what it stands for. -/
theorem stringBody?_letter {letter meant : Char} (stands : escape? letter = some meant)
    (noUnit : letter ≠ 'u') (read rest : List Char) :
    stringBody? 0 read ('\\' :: letter :: rest) = stringBody? 0 (meant :: read) rest := by
  have plain : escapedUnit? ('\\' :: letter :: rest) = none := by
    unfold escapedUnit?
    split
    · rename_i same
      exact absurd (List.cons.inj (List.cons.inj same).2).1 noUnit
    · rfl
  rw [stringBody?, if_neg (by decide), if_neg (by decide), if_pos rfl, plain]
  simp only [stands]
  exact stringBody?_skip 1 _ _

/-- A control character is read by its code unit. -/
theorem stringBody?_unit {c : Char} (control : c.toNat < 32) (read rest : List Char) :
    stringBody? 0 read ('\\' :: 'u' :: (hexDigits 4 c.toNat ++ rest)) =
      stringBody? 0 (c :: read) rest := by
  have single : isHighHalf c.toNat = false ∧ isLowHalf c.toNat = false := by
    simp only [isHighHalf, isLowHalf, Bool.and_eq_false_iff, decide_eq_false_iff_not]
    omega
  have char : unitChar c.toNat = c := by
    rw [unitChar, single.1, single.2, if_neg (by decide), Char.ofNat_toNat]
  rw [stringBody?, if_neg (by decide), if_neg (by decide), if_pos rfl,
    escapedUnit?_hexDigits (by omega)]
  simp only [single.1, char]
  rw [stringBody?_skip]
  rfl

/-- **A character of a string is read back**, escaped or not. -/
theorem stringBody?_escapedChar (c : Char) (read rest : List Char) :
    stringBody? 0 read (escapedChar c ++ rest) = stringBody? 0 (c :: read) rest := by
  unfold escapedChar
  split
  · exact stringBody?_letter rfl (by decide) read rest
  · exact stringBody?_letter rfl (by decide) read rest
  · exact stringBody?_letter rfl (by decide) read rest
  · exact stringBody?_letter rfl (by decide) read rest
  · exact stringBody?_letter rfl (by decide) read rest
  · exact stringBody?_letter rfl (by decide) read rest
  · exact stringBody?_letter rfl (by decide) read rest
  · rename_i noQuote noBackslash _ _ _ _ _
    split
    · rename_i control
      exact stringBody?_unit control read rest
    · rename_i visible
      rw [List.singleton_append, stringBody?.eq_def]
      simp only [if_neg noQuote, if_neg visible, if_neg noBackslash]

/-- **The characters of a string are read back**, up to its quote. -/
theorem stringBody?_escaped (cs read rest : List Char) :
    stringBody? 0 read (cs.flatMap escapedChar ++ '"' :: rest) =
      some (String.ofList (read.reverse ++ cs), rest) := by
  induction cs generalizing read with
  | nil => simp [stringBody?]
  | cons c cs ih =>
    rw [List.flatMap_cons, List.append_assoc, stringBody?_escapedChar, ih, List.reverse_cons,
      List.append_assoc, List.singleton_append]

/-! ## Tokens -/

/-- **A string is read back.** -/
theorem token?_string (s : String) (rest : List Char) :
    token? ((stringText s).toList ++ rest) = some (.string s, rest) := by
  have body := stringBody?_escaped s.toList [] rest
  have shape : (stringText s).toList ++ rest =
      '"' :: (s.toList.flatMap escapedChar ++ '"' :: rest) := by
    simp [stringText]
  rw [shape, token?, show mark? '"' = none from rfl]
  simp [body]

theorem eq_digitChar {c : Char} {d : ℕ} (digit : decimalDigit? c = some d) :
    d < 10 ∧ c = digitChar d := by
  rw [decimalDigit?] at digit
  split at digit
  · rename_i between
    obtain rfl := Option.some.inj digit
    refine ⟨by omega, ?_⟩
    rw [digitChar, Nat.add_sub_cancel' between.1, Char.ofNat_toNat]
  · cases digit

/-- What begins with a digit is no mark, no string and no word. -/
theorem token?_digit {c : Char} {d : ℕ} (digit : decimalDigit? c = some d) (rest : List Char) :
    token? (c :: rest) =
      (number? (c :: rest)).map fun (value, after) => (.scalar value, after) := by
  obtain ⟨small, rfl⟩ := eq_digitChar digit
  match d, small with
  | 0, _ | 1, _ | 2, _ | 3, _ | 4, _ | 5, _ | 6, _ | 7, _ | 8, _ | 9, _ => rfl

/-- A minus sign in front of a digit begins a number as well. -/
theorem token?_minus {c : Char} {d : ℕ} (digit : decimalDigit? c = some d) (rest : List Char) :
    token? ('-' :: c :: rest) =
      (number? ('-' :: c :: rest)).map fun (value, after) => (.scalar value, after) := by
  obtain ⟨small, rfl⟩ := eq_digitChar digit
  match d, small with
  | 0, _ | 1, _ | 2, _ | 3, _ | 4, _ | 5, _ | 6, _ | 7, _ | 8, _ | 9, _ => rfl

/-- **What is read as a number** is a token. -/
theorem token?_number {cs rest : List Char} {value : Json}
    (read : number? cs = some (value, rest)) : token? cs = some (.scalar value, rest) := by
  have whole := read
  unfold number? at read
  split at read
  · obtain ⟨c, d, more, rfl, digit⟩ := head_of_magnitude? read
    rw [token?_minus digit, whole]
    rfl
  · obtain ⟨c, d, more, rfl, digit⟩ := head_of_magnitude? read
    rw [token?_digit digit, whole]
    rfl

/-! ## Values that are tokens -/

/-- **What follows a value** in a file: nothing, a comma, or a line end. -/
def EndsValue (rest : List Char) : Prop :=
  ∀ c ∈ rest.head?, c = ',' ∨ c = '\n'

theorem EndsValue.endsNumber {rest : List Char} (ends : EndsValue rest) : EndsNumber rest := by
  intro c mem
  rcases ends c mem with rfl | rfl <;> decide

theorem token?_int (n : ℤ) {rest : List Char} (ends : EndsValue rest) :
    token? ((intText n).toList ++ rest) = some (.scalar (.int n), rest) := by
  rw [intText, String.toList_ofList]
  exact token?_number (number?_intChars n ends.endsNumber)

/-- **A double is read back**, whether or not it is finite. -/
theorem token?_float {x : Binary64} (real : x.IsReal) {rest : List Char} (ends : EndsValue rest) :
    token? ((x.textWith "NaN" "Infinity").toList ++ rest) = some (.scalar (.float x), rest) := by
  cases x with
  | nan => rfl
  | infinite negative => cases negative <;> rfl
  | finite negative q =>
    rw [textWith, String.toList_ofList]
    exact token?_number (number?_finiteChars real negative ends.endsNumber)

end ExactAlgebra.Json
