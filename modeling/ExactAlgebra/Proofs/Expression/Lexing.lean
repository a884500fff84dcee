import ExactAlgebra.Proofs.Error.Run
import ExactAlgebra.Proofs.Text.Numeral
import ExactAlgebra.Expression.Token

/-!
# The tokens of a written text

A text that is written by the library consists of decimal numerals, single letters, signs, roots and
spaces. Its tokens can be read off from the way it is put together, as long as a numeral is not
followed by a digit or a point, a letter not by a letter, and a star not by a star. What is said of the
tokens of any text follows from what can stand first in it.

## Main statements

* `numeral?_cases`, `numeral?_append` — what is cut off a text as a numeral;
* `lexes` — how a text is read, token by token;
* `isNumeral_of_lex` — the numbers in a text are decimal numerals;
* `Scans.tokens_eq` — the tokens of such a text;
* `Spells.append` — texts that are put together.

## Main definitions

* `Lexes` — how any text is read;
* `Scans` — how a whole text is put together, and its tokens;
* `Spells` — how a part of a text is, whatever follows it.
-/

namespace ExactAlgebra.Expression

open ExactAlgebra.Text
open Rational (IsNumeral)

/-- **A text does not go on with a digit or a point.** -/
def NoNumeral (cs : List Char) : Prop :=
  ∀ c ∈ cs.head?, isDigit c = false ∧ c ≠ '.'

/-- **A text does not go on with a letter.** -/
def NoLetter (cs : List Char) : Prop :=
  ∀ c ∈ cs.head?, c.isAlpha = false

/-- **A text does not go on with a letter, a digit or a point.** -/
def NoWord (cs : List Char) : Prop :=
  NoNumeral cs ∧ NoLetter cs

/-- **A text does not begin with a root.** -/
def NoRoot (c : Char) (cs : List Char) : Prop :=
  ∀ rest, c = 's' → cs ≠ 'q' :: 'r' :: 't' :: rest

/-- **How a text is put together**, with its tokens. -/
inductive Scans : List Char → List Token → Prop where
  | nil : Scans [] []
  | space {cs : List Char} {ts : List Token} : Scans cs ts → Scans (' ' :: cs) ts
  | sign {c : Char} {t : Token} {cs : List Char} {ts : List Token} :
      c ∈ ['+', '-', '/', '^', '(', ')'] → Token.ofChar? c = some t → Scans cs ts →
      Scans (c :: cs) (t :: ts)
  | times {cs : List Char} {ts : List Token} :
      cs.head? ≠ some '*' → Scans cs ts → Scans ('*' :: cs) (.times :: ts)
  | letter {c : Char} {cs : List Char} {ts : List Token} :
      c.isAlpha = true → NoLetter cs → Scans cs ts → Scans (c :: cs) (.letter c :: ts)
  | number {n : Nat} {cs : List Char} {ts : List Token} :
      NoNumeral cs → Scans cs ts → Scans (natChars n ++ cs) (.number (natText n) :: ts)
  | sqrt {cs : List Char} {ts : List Token} :
      Scans cs ts → Scans ('s' :: 'q' :: 'r' :: 't' :: cs) (.sqrt :: ts)

/-! ## Double stars -/

/-- A character that is no star stays as it is. -/
theorem caretForStars_cons {c : Char} (noStar : c ≠ '*') (cs : List Char) :
    caretForStars (c :: cs) = c :: caretForStars cs := by
  rw [caretForStars]
  rintro _ rfl
  exact absurd rfl noStar

theorem caretForStars_star {cs : List Char} (single : cs.head? ≠ some '*') :
    caretForStars ('*' :: cs) = '*' :: caretForStars cs := by
  rw [caretForStars]
  rintro rest _ rfl
  exact single rfl

theorem caretForStars_append {front : List Char} (noStar : ∀ c ∈ front, c ≠ '*') (cs : List Char) :
    caretForStars (front ++ cs) = front ++ caretForStars cs := by
  induction front with
  | nil => rfl
  | cons c front ih =>
    obtain ⟨here, noStar⟩ := List.forall_mem_cons.mp noStar
    rw [List.cons_append, caretForStars_cons here, ih noStar, List.cons_append]

/-! ## Letters, digits and signs -/

/-- A letter is none of the characters that mean something else. -/
theorem ne_of_isAlpha {c d : Char} (letter : c.isAlpha = true) (other : d.isAlpha = false) : c ≠ d := by
  rintro rfl
  rw [letter] at other
  cases other

theorem plainSign_letter {c : Char} (letter : c.isAlpha = true) : plainSign c = [c] := by
  rw [plainSign] <;> exact ne_of_isAlpha letter (by decide)

theorem ofChar?_letter {c : Char} (letter : c.isAlpha = true) :
    Token.ofChar? c = some (.letter c) := by
  rw [Token.ofChar?]
  · rw [if_pos letter]
  all_goals exact ne_of_isAlpha letter (by decide)

/-- A digit of any script is an ASCII digit or beyond ASCII. -/
theorem isDigit_eq_false {c : Char} (low : 58 ≤ c.toNat) (high : c.toNat < 1632) :
    isDigit c = false := by
  have starts : ∀ start ∈ digitZeros, start = 48 ∨ 1632 ≤ start := by decide
  have none : (digitZeros.find? fun start => start ≤ c.toNat && c.toNat < start + 10) = none := by
    rw [List.find?_eq_none]
    intro start mem
    rcases starts start mem with rfl | beyond <;> simp <;> omega
  rw [isDigit, digitValue?, none]
  rfl

theorem isAlpha_toNat {c : Char} (letter : c.isAlpha = true) : 65 ≤ c.toNat ∧ c.toNat ≤ 122 := by
  rcases (Bool.or_eq_true _ _).mp letter with upper | lower
  · obtain ⟨low, high⟩ : 65 ≤ c.toNat ∧ c.toNat ≤ 90 := of_decide_eq_true upper
    omega
  · obtain ⟨above, below⟩ := (Bool.and_eq_true _ _).mp lower
    have low : 97 ≤ c.toNat := of_decide_eq_true above
    have high : c.toNat ≤ 122 := of_decide_eq_true below
    omega

theorem isDigit_letter {c : Char} (letter : c.isAlpha = true) : isDigit c = false := by
  obtain ⟨low, high⟩ := isAlpha_toNat letter
  exact isDigit_eq_false (by omega) (by omega)

theorem isBlank_letter {c : Char} (letter : c.isAlpha = true) : isBlank c = false := by
  obtain ⟨low, high⟩ := isAlpha_toNat letter
  simp only [isBlank, Bool.or_eq_false_iff, Bool.and_eq_false_iff, decide_eq_false_iff_not,
    beq_eq_false_iff_ne, ne_eq]
  omega

theorem isDigit_blank {c : Char} (blank : isBlank c = true) : isDigit c = false := by
  by_contra digit
  rw [Rational.isBlank_of_isDigit (Bool.eq_true_of_not_eq_false digit)] at blank
  cases blank

theorem plain_digit {d : Nat} (small : d < 10) :
    plainSign (digitChar d) = [digitChar d] ∧ digitChar d ≠ '*' := by
  match d, small with
  | 0, _ | 1, _ | 2, _ | 3, _ | 4, _ | 5, _ | 6, _ | 7, _ | 8, _ | 9, _ => decide

theorem plain_natChars {n : Nat} {c : Char} (mem : c ∈ natChars n) :
    plainSign c = [c] ∧ c ≠ '*' ∧ isBlank c = false ∧ c.isAlpha = false := by
  obtain ⟨ds, written, -, digits, -⟩ := natChars_eq n
  rw [written] at mem
  obtain ⟨d, inside, rfl⟩ := List.mem_map.mp mem
  obtain ⟨plain, noStar⟩ := plain_digit (digits d inside)
  have digit := isDigit_digitChar (digits d inside)
  refine ⟨plain, noStar, Rational.isBlank_of_isDigit digit, ?_⟩
  by_contra letter
  rw [isDigit_letter (by simpa using letter)] at digit
  cases digit

/-! ## What may follow -/

theorem noNumeral_cons {c : Char} (noDigit : isDigit c = false) (noPoint : c ≠ '.') (cs : List Char) :
    NoNumeral (c :: cs) := by
  simpa [NoNumeral] using ⟨noDigit, noPoint⟩

theorem noNumeral_letter {c : Char} (letter : c.isAlpha = true) (cs : List Char) :
    NoNumeral (c :: cs) :=
  noNumeral_cons (isDigit_letter letter) (ne_of_isAlpha letter (by decide)) cs

theorem noLetter_cons {c : Char} (noLetter : c.isAlpha = false) (cs : List Char) :
    NoLetter (c :: cs) := by
  simpa [NoLetter] using noLetter

theorem noWord_nil : NoWord [] := by
  simp [NoWord, NoNumeral, NoLetter]

/-- A space ends every word. -/
theorem noWord_space (cs : List Char) : NoWord (' ' :: cs) :=
  ⟨noNumeral_cons (by decide) (by decide) cs, noLetter_cons (by decide) cs⟩

/-! ## Numerals -/

section Numeral

variable {cs bs rest lexeme after : List Char} {c : Char}

theorem numeral?_of_point (point : cs.dropWhile isDigit = '.' :: rest) : numeral? cs =
    if cs.takeWhile isDigit = [] ∧ rest.takeWhile isDigit = [] then none
    else some (cs.takeWhile isDigit ++ '.' :: rest.takeWhile isDigit, rest.dropWhile isDigit) := by
  simp only [numeral?, point]

theorem numeral?_of_no_point (noPoint : ∀ rest, cs.dropWhile isDigit ≠ '.' :: rest) : numeral? cs =
    if cs.takeWhile isDigit = [] then none
    else some (cs.takeWhile isDigit, cs.dropWhile isDigit) := by
  rw [numeral?]
  split
  · rename_i rest point
    exact absurd point (noPoint rest)
  · rfl

/-- **What is cut off a text**: digits, and a point with decimals if one stands behind them. -/
theorem numeral?_cases (found : numeral? cs = some (lexeme, after)) :
    (∃ rest, cs.dropWhile isDigit = '.' :: rest ∧
      (cs.takeWhile isDigit ≠ [] ∨ rest.takeWhile isDigit ≠ []) ∧
      lexeme = cs.takeWhile isDigit ++ '.' :: rest.takeWhile isDigit ∧
      after = rest.dropWhile isDigit) ∨
    (∀ rest, cs.dropWhile isDigit ≠ '.' :: rest) ∧ cs.takeWhile isDigit ≠ [] ∧
      lexeme = cs.takeWhile isDigit ∧ after = cs.dropWhile isDigit := by
  by_cases point : ∃ rest, cs.dropWhile isDigit = '.' :: rest
  · obtain ⟨rest, point⟩ := point
    rw [numeral?_of_point point, Option.ite_none_left_eq_some] at found
    obtain ⟨nonempty, found⟩ := found
    cases found
    exact .inl ⟨rest, point, not_and_or.mp nonempty, rfl, rfl⟩
  · rw [not_exists] at point
    rw [numeral?_of_no_point point, Option.ite_none_left_eq_some] at found
    obtain ⟨nonempty, found⟩ := found
    cases found
    exact .inr ⟨point, nonempty, rfl, rfl⟩

theorem numeral?_eq_none (noDigit : isDigit c = false) (noPoint : c ≠ '.') (cs : List Char) :
    numeral? (c :: cs) = none := by
  have first : ¬ isDigit c = true := by simp [noDigit]
  rw [numeral?_of_no_point, if_pos (List.takeWhile_cons_of_neg first)]
  rw [List.dropWhile_cons_of_neg first]
  rintro rest same
  exact noPoint (List.cons.inj same).1

/-- Where no number is read, no digit stands first, and a point is followed by none. -/
theorem numeral?_none (none : numeral? (c :: rest) = none) :
    isDigit c = false ∧ (c = '.' → rest.head?.any isDigit = false) := by
  have noDigit : isDigit c = false := by
    by_contra digit
    have first : (c :: rest).takeWhile isDigit ≠ [] := by simp [Bool.eq_true_of_not_eq_false digit]
    by_cases point : ∃ more, (c :: rest).dropWhile isDigit = '.' :: more
    · obtain ⟨more, point⟩ := point
      rw [numeral?_of_point point, if_neg (not_and_of_not_left _ first)] at none
      cases none
    · rw [numeral?_of_no_point (not_exists.mp point), if_neg first] at none
      cases none
  refine ⟨noDigit, ?_⟩
  rintro rfl
  have point : ('.' :: rest).dropWhile isDigit = '.' :: rest := rfl
  rw [numeral?_of_point point] at none
  split at none
  · rename_i empty
    cases rest with
    | nil => rfl
    | cons d more =>
      by_contra digit
      rw [List.head?_cons, Option.any_some, Bool.not_eq_false] at digit
      rw [List.takeWhile_cons_of_pos digit] at empty
      exact absurd empty.2 (List.cons_ne_nil _ _)
  · cases none

/-- A run of characters of a class ends where a text goes on with another one. -/
theorem while_append (cs : List Char) {inClass : Char → Bool} (ends : ∀ c ∈ bs.head?, inClass c = false) :
    (cs ++ bs).takeWhile inClass = cs.takeWhile inClass ∧
      (cs ++ bs).dropWhile inClass = cs.dropWhile inClass ++ bs := by
  induction cs with
  | nil =>
    cases bs with
    | nil => exact ⟨rfl, rfl⟩
    | cons b bs => simp [ends b rfl]
  | cons c cs ih =>
    rw [List.cons_append, List.takeWhile_cons, List.takeWhile_cons, List.dropWhile_cons,
      List.dropWhile_cons, ih.1, ih.2]
    split <;> exact ⟨rfl, rfl⟩

/-- **A numeral is read** whatever the text goes on with that belongs to no numeral. -/
theorem numeral?_append (cs : List Char) (ends : NoNumeral bs) :
    numeral? (cs ++ bs) = (numeral? cs).map fun (lexeme, after) => (lexeme, after ++ bs) := by
  have digits : ∀ c ∈ bs.head?, isDigit c = false := fun c mem => (ends c mem).1
  obtain ⟨run, rest⟩ := while_append cs digits
  by_cases point : ∃ more, cs.dropWhile isDigit = '.' :: more
  · obtain ⟨more, point⟩ := point
    obtain ⟨decimals, after⟩ := while_append more digits
    rw [point, List.cons_append] at rest
    rw [numeral?_of_point rest, numeral?_of_point point, run, decimals, after]
    split <;> rfl
  · rw [not_exists] at point
    have noPoint : ∀ more, (cs ++ bs).dropWhile isDigit ≠ '.' :: more := by
      intro more same
      rw [rest] at same
      cases front : cs.dropWhile isDigit with
      | nil =>
        rw [front, List.nil_append] at same
        exact (ends '.' (by rw [same]; rfl)).2 rfl
      | cons c left =>
        rw [front, List.cons_append] at same
        obtain ⟨rfl, -⟩ := List.cons.inj same
        exact point left front
    rw [numeral?_of_no_point noPoint, numeral?_of_no_point point, run, rest]
    split <;> rfl

/-- A numeral ends where neither a digit nor a point follows. -/
theorem numeral?_natChars (n : Nat) (ends : NoNumeral cs) :
    numeral? (natChars n ++ cs) = some (natChars n, cs) := by
  have digits : ∀ c ∈ natChars n, isDigit c = true := fun c mem => isDigit_natChars mem
  have run := List.takeWhile_eq_self_iff.mpr digits
  have rest := List.dropWhile_eq_nil_iff.mpr digits
  have whole : numeral? (natChars n) = some (natChars n, []) := by
    rw [numeral?_of_no_point (by rw [rest]; exact nofun), run, rest, if_neg (natChars_ne_nil n)]
  rw [numeral?_append _ ends, whole]
  rfl

/-- What is cut off a text as a numeral is one. -/
theorem isNumeral_of_numeral? (found : numeral? cs = some (lexeme, after)) : IsNumeral lexeme := by
  have digits (ds : List Char) : ∀ c ∈ ds.takeWhile isDigit, isDigit c = true :=
    fun c mem => List.mem_takeWhile_imp mem
  rcases numeral?_cases found with ⟨rest, -, nonempty, rfl, -⟩ | ⟨-, nonempty, rfl, -⟩
  · exact .point nonempty (digits _) (digits _)
  · exact .whole nonempty (digits _)

end Numeral

/-! ## Tokens -/

theorem noRoot_of_ne {c : Char} (other : c ≠ 's') (cs : List Char) : NoRoot c cs :=
  fun _ same => absurd same other

theorem lex_nil : lex [] = .ok [] := by
  rw [lex.eq_def]

theorem lex_sqrt (cs : List Char) :
    lex ('s' :: 'q' :: 'r' :: 't' :: cs) = (lex cs).map (.sqrt :: ·) := by
  rw [lex.eq_def]
  rfl

/-- A text that does not begin with a root begins with a blank, with a numeral or with a token of one
character. -/
theorem lex_other {c : Char} {cs : List Char} (noRoot : NoRoot c cs) :
    lex (c :: cs) = if isBlank c then lex cs else
      match numeral? (c :: cs) with
      | some (lexeme, after) => (lex after).map (.number (String.ofList lexeme) :: ·)
      | none =>
        match Token.ofChar? c with
        | some token => (lex cs).map (token :: ·)
        | none => .error (.invalidCharacter c) := by
  -- the general equation, because the separate ones split the letters of the root
  rw [lex.eq_def]
  split
  · rename_i same
    cases same
  · rename_i rest same
    obtain ⟨rfl, rfl⟩ := List.cons.inj same
    exact absurd rfl (noRoot rest rfl)
  · rename_i d ds _ same
    obtain ⟨rfl, rfl⟩ := List.cons.inj same
    split
    · rfl
    · split
      · rename_i found
        rewrite [found]
        rfl
      · rename_i found
        rewrite [found]
        rfl

/-- The first token of a text that begins with neither a root nor a numeral. -/
theorem lex_cons {c : Char} {cs : List Char} (noRoot : NoRoot c cs) (noBlank : isBlank c = false)
    (noNumeral : numeral? (c :: cs) = none) {t : Token} (found : Token.ofChar? c = some t) :
    lex (c :: cs) = (lex cs).map (t :: ·) := by
  rw [lex_other noRoot, noBlank, if_neg Bool.false_ne_true, noNumeral]
  dsimp only
  rw [found]

/-- A blank is skipped. -/
theorem lex_blank {c : Char} (blank : isBlank c = true) (cs : List Char) : lex (c :: cs) = lex cs := by
  have noRoot : c ≠ 's' := by
    rintro rfl
    exact absurd blank (by decide)
  rw [lex_other (noRoot_of_ne noRoot cs), if_pos blank]

/-- A numeral is a token. -/
theorem lex_numeral {cs lexeme after : List Char} (numeral : numeral? cs = some (lexeme, after)) :
    lex cs = (lex after).map (.number (String.ofList lexeme) :: ·) := by
  obtain rfl := numeral?_eq numeral
  obtain ⟨c, more, rfl⟩ := List.exists_cons_of_ne_nil (numeral?_ne_nil numeral)
  have first := (isNumeral_of_numeral? numeral).of_mem List.mem_cons_self
  have noBlank : isBlank c = false := by
    rcases first with digit | rfl
    · exact Rational.isBlank_of_isDigit digit
    · rfl
  have noRoot : c ≠ 's' := by
    rintro rfl
    exact absurd first (by decide)
  rw [List.cons_append] at numeral ⊢
  rw [lex_other (noRoot_of_ne noRoot _), noBlank, if_neg Bool.false_ne_true, numeral]

theorem lex_natChars (n : Nat) {cs : List Char} (ends : NoNumeral cs) :
    lex (natChars n ++ cs) = (lex cs).map (.number (natText n) :: ·) :=
  lex_numeral (numeral?_natChars n ends)

/-- A character that begins no token is refused. -/
theorem lex_unknown {c : Char} {cs : List Char} (noBlank : isBlank c = false)
    (noNumeral : numeral? (c :: cs) = none) (unknown : Token.ofChar? c = none) :
    lex (c :: cs) = .error (.invalidCharacter c) := by
  have noRoot : c ≠ 's' := by
    rintro rfl
    cases unknown
  rw [lex_other (noRoot_of_ne noRoot cs), noBlank, if_neg Bool.false_ne_true, noNumeral]
  simp only [unknown]

/-- **How a text is read**, from what stands first in it and what becomes of the rest. -/
inductive Lexes : List Char → Except Error (List Token) → Prop where
  | nil : Lexes [] (.ok [])
  | blank {c : Char} {cs : List Char} {outcome : Except Error (List Token)} :
      isBlank c = true → Lexes cs outcome → Lexes (c :: cs) outcome
  | sqrt {cs : List Char} {outcome : Except Error (List Token)} :
      Lexes cs outcome → Lexes ('s' :: 'q' :: 'r' :: 't' :: cs) (outcome.map (.sqrt :: ·))
  | number {lexeme after : List Char} {outcome : Except Error (List Token)} :
      numeral? (lexeme ++ after) = some (lexeme, after) → Lexes after outcome →
      Lexes (lexeme ++ after) (outcome.map (.number (String.ofList lexeme) :: ·))
  | single {c : Char} {cs : List Char} {t : Token} {outcome : Except Error (List Token)} :
      NoRoot c cs → isBlank c = false → numeral? (c :: cs) = none → Token.ofChar? c = some t →
      Lexes cs outcome → Lexes (c :: cs) (outcome.map (t :: ·))
  | unknown {c : Char} {cs : List Char} : isBlank c = false → numeral? (c :: cs) = none →
      Token.ofChar? c = none → Lexes (c :: cs) (.error (.invalidCharacter c))

/-- **Every text is read** so. -/
theorem lexes (cs : List Char) : Lexes cs (lex cs) := by
  induction cs using lex.induct with
  | case1 =>
    rw [lex_nil]
    exact .nil
  | case2 rest ih =>
    rw [lex_sqrt]
    exact .sqrt ih
  | case3 c rest noRoot blank ih =>
    rw [lex_blank blank]
    exact .blank blank ih
  | case4 c rest noRoot noBlank lexeme after numeral ih =>
    have parts := numeral?_eq numeral
    rw [lex_numeral numeral]
    rw [← parts] at numeral ⊢
    exact .number numeral ih
  | case5 c rest noRoot noBlank noNumeral token found ih =>
    rw [Bool.not_eq_true] at noBlank
    rw [lex_cons noRoot noBlank noNumeral found]
    exact .single noRoot noBlank noNumeral found ih
  | case6 c rest noRoot noBlank noNumeral unknown =>
    rw [Bool.not_eq_true] at noBlank
    rw [lex_unknown noBlank noNumeral unknown]
    exact .unknown noBlank noNumeral unknown

/-- A single character spells a sign or a letter. -/
theorem ofChar?_ne_number {c : Char} {spelling : String} :
    Token.ofChar? c ≠ some (.number spelling) := by
  intro found
  unfold Token.ofChar? at found
  split at found <;> grind

/-- **The numbers in a text are decimal numerals.** -/
theorem isNumeral_of_lex {cs : List Char} {ts : List Token} (lexed : lex cs = .ok ts) {spelling : String}
    (mem : .number spelling ∈ ts) : IsNumeral spelling.toList := by
  have reading := lexes cs
  generalize lex cs = outcome at lexed reading
  induction reading generalizing ts with
  | nil =>
    cases lexed
    cases mem
  | blank _ _ ih => exact ih mem lexed
  | sqrt _ ih =>
    obtain ⟨more, read, rfl⟩ := ok_of_map lexed
    rcases List.mem_cons.mp mem with first | mem
    · cases first
    · exact ih mem read
  | number numeral _ ih =>
    obtain ⟨more, read, rfl⟩ := ok_of_map lexed
    rcases List.mem_cons.mp mem with first | mem
    · cases first
      rw [String.toList_ofList]
      exact isNumeral_of_numeral? numeral
    · exact ih mem read
  | single _ _ _ found _ ih =>
    obtain ⟨more, read, rfl⟩ := ok_of_map lexed
    rcases List.mem_cons.mp mem with first | mem
    · rw [← first] at found
      exact absurd found ofChar?_ne_number
    · exact ih mem read
  | unknown => cases lexed

/-! ## Whole texts -/

/-- A sign that is a token is plain, and neither a blank nor a part of a numeral or a root. -/
theorem sign_plain : ∀ c ∈ ['+', '-', '/', '^', '(', ')'], plainSign c = [c] ∧ c ≠ '*' ∧ c ≠ 's' ∧
    isBlank c = false ∧ isDigit c = false ∧ c ≠ '.' := by
  intro c mem
  simp only [List.mem_cons, List.not_mem_nil, or_false] at mem
  rcases mem with rfl | rfl | rfl | rfl | rfl | rfl <;> decide

namespace Scans

variable {cs : List Char} {ts : List Token}

theorem plain (scans : Scans cs ts) : ∀ c ∈ cs, plainSign c = [c] := by
  induction scans with
  | nil => simp
  | space _ ih => exact List.forall_mem_cons.mpr ⟨by decide, ih⟩
  | sign mem _ _ ih => exact List.forall_mem_cons.mpr ⟨(sign_plain _ mem).1, ih⟩
  | times _ _ ih => exact List.forall_mem_cons.mpr ⟨by decide, ih⟩
  | letter letter _ _ ih => exact List.forall_mem_cons.mpr ⟨plainSign_letter letter, ih⟩
  | number _ _ ih =>
    intro c mem
    rcases List.mem_append.mp mem with mem | mem
    · exact (plain_natChars mem).1
    · exact ih c mem
  | sqrt _ ih =>
    simp only [List.forall_mem_cons]
    exact ⟨by decide, by decide, by decide, by decide, ih⟩

theorem caretForStars_eq (scans : Scans cs ts) : caretForStars cs = cs := by
  induction scans with
  | nil => rfl
  | space _ ih => rw [caretForStars_cons (by decide), ih]
  | sign mem _ _ ih => rw [caretForStars_cons (sign_plain _ mem).2.1, ih]
  | times single _ ih => rw [caretForStars_star single, ih]
  | letter letter _ _ ih => rw [caretForStars_cons (ne_of_isAlpha letter (by decide)), ih]
  | number _ _ ih => rw [caretForStars_append fun c mem => (plain_natChars mem).2.1, ih]
  | sqrt _ ih =>
    rw [caretForStars_cons (by decide), caretForStars_cons (by decide),
      caretForStars_cons (by decide), caretForStars_cons (by decide), ih]

theorem lex_eq (scans : Scans cs ts) : lex cs = .ok ts := by
  induction scans with
  | nil => exact lex_nil
  | space _ read =>
    rw [lex_blank rfl, read]
  | sign mem found _ read =>
    obtain ⟨-, -, noRoot, noBlank, noDigit, noPoint⟩ := sign_plain _ mem
    rw [lex_cons (noRoot_of_ne noRoot _) noBlank (numeral?_eq_none noDigit noPoint _)
      found, read]
    rfl
  | times _ _ read =>
    rw [lex_cons (noRoot_of_ne (by decide) _) (by decide)
      (numeral?_eq_none (by decide) (by decide) _) rfl, read]
    rfl
  | letter letter noLetter _ read =>
    rw [lex_cons ?_ (isBlank_letter letter) (numeral?_eq_none (isDigit_letter letter)
      (ne_of_isAlpha letter (by decide)) _) (ofChar?_letter letter), read]
    · rfl
    · -- in a root the letter would be followed by another one
      rintro rest _ rfl
      exact absurd (noLetter 'q' rfl) (by decide)
  | number noNumeral _ read =>
    rw [lex_natChars _ noNumeral, read]
    rfl
  | sqrt _ read =>
    rw [lex_sqrt, read]
    rfl

/-- **The tokens of a text** that is put together in this way. -/
theorem tokens_eq (scans : Scans cs ts) : tokens (String.ofList cs) = .ok ts := by
  have signs : cs.flatMap plainSign = cs := by
    rw [List.flatMap_def, List.map_congr_left scans.plain, ← List.flatMap_def,
      List.flatMap_singleton']
  rw [tokens, String.toList_ofList, plainSigns, signs, scans.caretForStars_eq, scans.lex_eq]

end Scans

/-! ## Parts of a text -/

/-- **How a part of a text is put together**, if what follows it is as it has to be. -/
def Spells (follows : List Char → Prop) (cs : List Char) (ts : List Token) : Prop :=
  ∀ rest us, follows rest → Scans rest us → Scans (cs ++ rest) (ts ++ us)

namespace Spells

variable {follows before : List Char → Prop} {cs ds : List Char} {ts us : List Token}

theorem nil : Spells follows [] [] :=
  fun _ _ _ scans => scans

/-- **Texts that are put together.** -/
theorem append (first : Spells before cs ts) (second : Spells follows ds us)
    (fits : ∀ rest, follows rest → before (ds ++ rest)) : Spells follows (cs ++ ds) (ts ++ us) := by
  intro rest vs ok scans
  rw [List.append_assoc, List.append_assoc]
  exact first _ _ (fits rest ok) (second _ _ ok scans)

/-- A part of a text may be followed by less. -/
theorem mono (spells : Spells before cs ts) (fewer : ∀ rest, follows rest → before rest) :
    Spells follows cs ts :=
  fun rest us ok scans => spells rest us (fewer rest ok) scans

theorem space (rest : Spells follows cs ts) : Spells follows (' ' :: cs) ts :=
  fun _ _ ok scans => .space (rest _ _ ok scans)

theorem sign {c : Char} {t : Token} (mem : c ∈ ['+', '-', '/', '^', '(', ')'])
    (found : Token.ofChar? c = some t) (rest : Spells follows cs ts) :
    Spells follows (c :: cs) (t :: ts) :=
  fun _ _ ok scans => .sign mem found (rest _ _ ok scans)

theorem star {c : Char} (single : c ≠ '*') (rest : Spells follows (c :: cs) ts) :
    Spells follows ('*' :: c :: cs) (.times :: ts) :=
  fun _ _ ok scans => .times (by simpa using single) (rest _ _ ok scans)

theorem letter {c : Char} (isLetter : c.isAlpha = true) (rest : Spells follows cs ts)
    (ends : ∀ rest, follows rest → NoLetter (cs ++ rest)) :
    Spells follows (c :: cs) (.letter c :: ts) :=
  fun _ _ ok scans => .letter isLetter (ends _ ok) (rest _ _ ok scans)

theorem number (n : Nat) (rest : Spells follows cs ts)
    (ends : ∀ rest, follows rest → NoNumeral (cs ++ rest)) :
    Spells follows (natChars n ++ cs) (.number (natText n) :: ts) := by
  intro more us ok scans
  rw [List.append_assoc]
  exact .number (ends _ ok) (rest _ _ ok scans)

theorem sqrt (rest : Spells follows cs ts) :
    Spells follows ('s' :: 'q' :: 'r' :: 't' :: cs) (.sqrt :: ts) :=
  fun _ _ ok scans => .sqrt (rest _ _ ok scans)

/-- A whole text. -/
theorem scans (spells : Spells follows cs ts) (ends : follows []) : Scans cs ts := by
  have whole := spells [] [] ends .nil
  rwa [List.append_nil, List.append_nil] at whole

end Spells

end ExactAlgebra.Expression
