import ExactAlgebra.Expression.Scanner
import ExactAlgebra.Proofs.Expression.Lexing
import ExactAlgebra.Proofs.Text.Split

/-!
# Matching finds the tokens

The pattern of a token begins with any number of blanks. What follows them is no blank, so it is no
line end either, and some character is left to be matched, unless the text ends in blanks. But those
at the end have been dropped before. So the pattern matches wherever it is tried, and what it matches
is what stands first in the text: a numeral, letters in a row or another character.

## Main statements

* `toList_replaced` — replacing one kind of sign after the other;
* `tokenPattern_best?` — the pattern matches in front of all that is no blank;
* `lex_word`, `lex_append_blanks` — letters in a row, and blanks at the end;
* `scan_eq`, `scanText_eq` — matching finds the tokens, and never fails to match.
-/

namespace ExactAlgebra.Expression

open ExactAlgebra.Text
open Pattern (best?_either best?_followed best?_followed_none best?_group best?_many best?_one
  best?_one_followed best?_perhaps best?_several)

/-! ## Replacements -/

/-- Two stars are replaced from left to right. -/
theorem intercalate_splitFrom_stars (part cs : List Char) :
    ['^'].intercalate (splitFrom ['*', '*'] 0 part cs) = part.reverse ++ caretForStars cs := by
  induction cs using caretForStars.induct generalizing part with
  | case1 rest ih =>
    have skipped : splitFrom ['*', '*'] (['*', '*'].length - 1) [] ('*' :: rest) =
        splitFrom ['*', '*'] 0 [] rest := rfl
    rw [splitFrom, if_pos ⟨by simp, rfl⟩, intercalate_splitFrom, skipped, ih, caretForStars]
    simp
  | case2 c rest noStars ih =>
    have other : ¬ (['*', '*'] ≠ [] ∧ ['*', '*'].isPrefixOf (c :: rest) = true) := by
      rintro ⟨-, stars⟩
      obtain ⟨more, parts⟩ := List.isPrefixOf_iff_prefix.mp stars
      cases parts
      exact noStars more rfl rfl
    rw [splitFrom, if_neg other, ih, caretForStars]
    · simp
    · exact noStars
  | case3 => simp [splitFrom, caretForStars]

/-- **Replacing one kind of sign after the other** is the same as replacing every sign by what it
stands for, and two stars at the end. -/
theorem toList_replaced (text : String) : (replaced text).toList = plainSigns text.toList := by
  simp only [replaced, replacements, List.foldl_cons, List.foldl_nil]
  have stars (text : String) : (replace "**" "^" text).toList = caretForStars text.toList := by
    rw [toList_replace]
    exact intercalate_splitFrom_stars [] text.toList
  rw [stars, toList_replace_char (d := '³') rfl, toList_replace_char (d := '²') rfl,
    toList_replace_char (d := '÷') rfl, toList_replace_char (d := '·') rfl,
    toList_replace_char (d := '×') rfl, toList_replace_char (d := '−') rfl,
    toList_replace_char (d := '√') rfl, plainSigns]
  simp only [List.flatMap_assoc]
  -- what is written for a sign holds none of the signs that are replaced later
  congr 2
  funext c
  fun_cases plainSign c with
  | case8 c noRoot noMinus noTimes noDot noDivision noSquare noCube =>
    simp only [if_neg noRoot, if_neg noMinus, if_neg noTimes, if_neg noDot, if_neg noDivision,
      if_neg noSquare, if_neg noCube, List.flatMap_singleton]
  | _ => decide

/-! ## Numerals -/

/-- A point and the digits behind it are matched if a point comes first. -/
theorem decimals_best? (cs : List Char) :
    (.perhaps (.followed (.one (· = '.')) (.many isDigit)) : Pattern Lexeme).best? cs =
      some (match cs with
        | '.' :: rest => ⟨'.' :: rest.takeWhile isDigit, [], rest.dropWhile isDigit⟩
        | after => .nothing after) := by
  rw [best?_perhaps]
  match cs with
  | [] => rfl
  | c :: rest =>
    rw [best?_one_followed, best?_many]
    by_cases point : c = '.'
    · subst point
      rfl
    · rw [if_neg (by simpa using point)]
      split
      · rename_i same
        exact absurd (List.cons.inj same).1 point
      · rfl

/-- **A number is matched** as it is read. -/
theorem numberPattern_best? (cs : List Char) : numberPattern.best? cs =
    (numeral? cs).map fun (lexeme, after) => ⟨lexeme, [], after⟩ := by
  have whole : (.several isDigit : Pattern Lexeme).best? cs = _ := best?_several isDigit cs
  have parts := List.takeWhile_append_dropWhile (p := isDigit) (l := cs)
  rw [numberPattern, best?_either]
  by_cases none : cs.takeWhile isDigit = []
  · -- only a point and digits can be matched
    rw [if_pos none] at whole
    rw [none, List.nil_append] at parts
    rw [best?_followed_none _ whole, Option.none_or]
    match cs with
    | [] => rfl
    | c :: rest =>
      rw [best?_one_followed, best?_several]
      by_cases point : c = '.'
      · subst point
        rw [numeral?_of_point parts, none]
        by_cases empty : rest.takeWhile isDigit = []
        · simp [empty]
        · simp [empty, Way.followedBy]
      · rw [numeral?_of_no_point (by rw [parts]; simp [point]), none]
        simp [point]
  · rw [if_neg none] at whole
    rw [best?_followed whole (decimals_best? _)]
    by_cases point : ∃ rest, cs.dropWhile isDigit = '.' :: rest
    · obtain ⟨rest, point⟩ := point
      rw [numeral?_of_point point, if_neg (not_and_of_not_left _ none)]
      simp [point, Way.followedBy]
    · rw [numeral?_of_no_point (not_exists.mp point), if_neg none]
      split
      · rename_i rest found
        exact absurd ⟨rest, found⟩ point
      · simp [Way.followedBy, Way.nothing]

/-! ## The pattern of a token -/

section Front

variable {cs rest : List Char} {c : Char}

/-- What stands behind the blanks in front is no blank. -/
theorem isBlank_front (front : cs.dropWhile isBlank = c :: rest) : isBlank c = false := by
  have first := List.head?_dropWhile_not isBlank cs
  rwa [front] at first

/-- What is matched in front of a text that does not begin with a blank. -/
def firstLexeme (c : Char) (rest : List Char) : Way Lexeme :=
  match numeral? (c :: rest) with
  | some (spelling, after) => ⟨spelling, [(.number, spelling)], after⟩
  | none =>
    if c.isAlpha then
      ⟨(c :: rest).takeWhile Char.isAlpha, [(.name, (c :: rest).takeWhile Char.isAlpha)],
        (c :: rest).dropWhile Char.isAlpha⟩
    else ⟨[c], [(.symbol, [c])], rest⟩

/-- **The pattern matches in front of all that is no blank**, with all blanks before it. -/
theorem tokenPattern_best? (front : cs.dropWhile isBlank = c :: rest) : tokenPattern.best? cs =
    some (Way.followedBy ⟨cs.takeWhile isBlank, [], c :: rest⟩ (firstLexeme c rest)) := by
  have blanks : (.many isBlank : Pattern Lexeme).best? cs = _ := best?_many isBlank cs
  rw [front] at blanks
  refine best?_followed blanks ?_
  have noLineEnd : c ≠ '\n' := by
    rintro rfl
    exact absurd (isBlank_front front) (by decide)
  rw [best?_either, best?_either, best?_group, best?_group, best?_group, numberPattern_best?,
    best?_several, best?_one, if_pos (decide_eq_true noLineEnd), firstLexeme]
  cases numeral? (c :: rest) with
  | some found => rfl
  | none =>
    by_cases letter : c.isAlpha = true
    · simp [letter, Way.named]
    · simp [letter, Way.named]

end Front

/-! ## Letters in a row -/

section Words

variable {cs rest : List Char} {c : Char}

/-- A root is not spelled across the end of a word. -/
theorem root_of_append (ends : NoLetter rest) {more : List Char}
    (root : cs ++ rest = 'q' :: 'r' :: 't' :: more) : ∃ more, cs = 'q' :: 'r' :: 't' :: more := by
  have other {c : Char} {more : List Char} (letter : c.isAlpha = true) : rest ≠ c :: more := by
    rintro rfl
    rw [ends c rfl] at letter
    cases letter
  match cs with
  | [] => exact absurd root (other (by decide))
  | [_] => exact absurd (List.cons.inj root).2 (other (by decide))
  | [_, _] => exact absurd (List.cons.inj (List.cons.inj root).2).2 (other (by decide))
  | _ :: _ :: _ :: more =>
    simp only [List.cons_append, List.cons.injEq] at root
    obtain ⟨rfl, rfl, rfl, -⟩ := root
    exact ⟨more, rfl⟩

theorem NoRoot.append (noRoot : NoRoot c cs) (ends : NoLetter rest) : NoRoot c (cs ++ rest) := by
  intro more isS root
  obtain ⟨more, same⟩ := root_of_append ends root
  exact noRoot more isS same

theorem map_append_map (x : Except Error (List Token)) (ts us : List Token) :
    (x.map (ts ++ ·)).map (us ++ ·) = x.map (us ++ ts ++ ·) := by
  cases x with
  | error e => rfl
  | ok vs => exact congrArg Except.ok (List.append_assoc us ts vs).symm

/-- **Letters in a row** are read as roots and single letters. -/
theorem lex_word {word : List Char} (letters : ∀ c ∈ word, c.isAlpha = true) (ends : NoLetter rest) :
    lex (word ++ rest) = (lex rest).map (wordTokens word ++ ·) := by
  fun_induction wordTokens word with
  | case1 =>
    rw [List.nil_append]
    cases lex rest <;> rfl
  | case2 word ih =>
    simp only [List.forall_mem_cons] at letters
    have read := ih letters.2.2.2.2
    show lex ('s' :: 'q' :: 'r' :: 't' :: (word ++ rest)) = _
    rw [lex_sqrt, read]
    exact map_append_map _ _ [.sqrt]
  | case3 c word noRoot ih =>
    obtain ⟨letter, letters⟩ := List.forall_mem_cons.mp letters
    rw [List.cons_append, lex_cons (.append noRoot ends) (isBlank_letter letter) (numeral?_eq_none
      (isDigit_letter letter) (ne_of_isAlpha letter (by decide)) _) (ofChar?_letter letter),
      ih letters]
    exact map_append_map _ _ [.letter c]

end Words

/-! ## What stands first -/

section First

variable {rest spelling after : List Char} {c : Char}

theorem lex_name (c : Char) (rest : List Char) : lex (c :: rest) =
    (lex ((c :: rest).dropWhile Char.isAlpha)).map
      (wordTokens ((c :: rest).takeWhile Char.isAlpha) ++ ·) := by
  have parts := List.takeWhile_append_dropWhile (p := Char.isAlpha) (l := c :: rest)
  have ends : NoLetter ((c :: rest).dropWhile Char.isAlpha) := by
    intro d mem
    have behind := List.head?_dropWhile_not Char.isAlpha (c :: rest)
    rwa [Option.mem_def.mp mem] at behind
  have letters : ∀ d ∈ (c :: rest).takeWhile Char.isAlpha, d.isAlpha = true :=
    fun d mem => List.mem_takeWhile_imp mem
  have word := lex_word letters ends
  rwa [parts] at word

theorem signToken?_eq (noLetter : c.isAlpha = false) : signToken? c = Token.ofChar? c := by
  rw [signToken?]
  split
  · rfl
  · rename_i other
    fun_cases Token.ofChar? c <;> simp_all [signs]

theorem lex_symbol (noBlank : isBlank c = false) (noNumeral : numeral? (c :: rest) = none)
    (noLetter : c.isAlpha = false) : lex (c :: rest) =
      match signToken? c with
      | some token => (lex rest).map ([token] ++ ·)
      | none => .error (.invalidCharacter c) := by
  have noRoot : c ≠ 's' := by
    rintro rfl
    cases noLetter
  rw [signToken?_eq noLetter]
  cases found : Token.ofChar? c with
  | some token => exact lex_cons (noRoot_of_ne noRoot rest) noBlank noNumeral found
  | none => exact lex_unknown noBlank noNumeral found

/-- **What is matched first is read first**: a number, letters in a row or another character. -/
theorem firstLexeme_cases (rest : List Char) (noBlank : isBlank c = false) :
    (∃ spelling after, firstLexeme c rest = ⟨spelling, [(.number, spelling)], after⟩ ∧
      lex (c :: rest) = (lex after).map ([.number (String.ofList spelling)] ++ ·)) ∨
    (∃ letters after, firstLexeme c rest = ⟨letters, [(.name, letters)], after⟩ ∧
      lex (c :: rest) = (lex after).map (wordTokens letters ++ ·)) ∨
    (firstLexeme c rest = ⟨[c], [(.symbol, [c])], rest⟩ ∧
      lex (c :: rest) =
        match signToken? c with
        | some token => (lex rest).map ([token] ++ ·)
        | none => .error (.invalidCharacter c)) := by
  rw [firstLexeme]
  cases numeral : numeral? (c :: rest) with
  | some found => exact .inl ⟨found.1, found.2, rfl, lex_numeral numeral⟩
  | none =>
    by_cases letter : c.isAlpha = true
    · exact .inr (.inl ⟨_, _, if_pos letter, lex_name c rest⟩)
    · exact .inr (.inr ⟨if_neg letter, lex_symbol noBlank numeral (by simpa using letter)⟩)

end First

/-! ## Blanks -/

section Blanks

variable {cs bs : List Char}

/-- Blanks in front of a text are skipped. -/
theorem lex_dropWhile (cs : List Char) : lex (cs.dropWhile isBlank) = lex cs := by
  induction cs with
  | nil => rfl
  | cons c cs ih =>
    rw [List.dropWhile_cons]
    split
    · rename_i blank
      rw [lex_blank blank, ih]
    · rfl

/-- A blank belongs to no word. -/
theorem noWord_blank (blanks : ∀ c ∈ bs, isBlank c = true) : NoWord bs := by
  have head : ∀ c ∈ bs.head?, isBlank c = true := fun c mem => blanks c (List.mem_of_mem_head? mem)
  refine ⟨fun c mem => ⟨isDigit_blank (head c mem), ?_⟩, fun c mem => ?_⟩
  · rintro rfl
    exact absurd (head '.' mem) (by decide)
  · by_contra letter
    have other := isBlank_letter (Bool.eq_true_of_not_eq_false letter)
    rw [head c mem] at other
    cases other

/-- **Blanks at the end of a text** make no difference. -/
theorem lex_append_blanks (blanks : ∀ c ∈ bs, isBlank c = true) : lex (cs ++ bs) = lex cs := by
  obtain ⟨endsNumeral, endsLetters⟩ := noWord_blank blanks
  -- nothing that is read in front of the blanks is read differently
  have same (cs : List Char) := numeral?_append cs endsNumeral
  have reading := lexes cs
  generalize lex cs = outcome at reading ⊢
  induction reading with
  | nil =>
    have none : bs.dropWhile isBlank = [] := List.dropWhile_eq_nil_iff.mpr blanks
    rw [List.nil_append, ← lex_dropWhile, none, lex_nil]
  | blank blank _ ih => rw [List.cons_append, lex_blank blank, ih]
  | @sqrt rest _ _ ih =>
    show lex ('s' :: 'q' :: 'r' :: 't' :: (rest ++ bs)) = _
    rw [lex_sqrt, ih]
  | @number lexeme after _ numeral _ ih =>
    have found := same (lexeme ++ after)
    rw [numeral] at found
    rw [lex_numeral found, ih]
  | @single c rest _ _ noRoot noBlank noNumeral token _ ih =>
    have missing := same (c :: rest)
    rw [noNumeral] at missing
    rw [List.cons_append, lex_cons (noRoot.append endsLetters) noBlank missing token, ih]
  | @unknown c rest noBlank noNumeral unknown =>
    have missing := same (c :: rest)
    rw [noNumeral] at missing
    exact lex_unknown noBlank missing unknown

/-- The text without the blanks at its end, and those blanks. -/
theorem trimEnd_append (cs : List Char) : ∃ bs, trimEnd cs ++ bs = cs ∧ ∀ c ∈ bs, isBlank c = true := by
  have parts := List.takeWhile_append_dropWhile (p := isBlank) (l := cs.reverse)
  refine ⟨(cs.reverse.takeWhile isBlank).reverse, ?_, fun c mem => ?_⟩
  · rw [trimEnd, ← List.reverse_append, parts, List.reverse_reverse]
  · exact List.mem_takeWhile_imp (List.mem_reverse.mp mem)

/-- **A text does not end with a blank.** -/
def EndsPlain (cs : List Char) : Prop :=
  ∀ c ∈ cs.getLast?, isBlank c = false

theorem endsPlain_trimEnd (cs : List Char) : EndsPlain (trimEnd cs) := by
  intro c mem
  have first := List.head?_dropWhile_not isBlank cs.reverse
  rw [trimEnd, List.getLast?_reverse] at mem
  rw [Option.mem_def.mp mem] at first
  exact first

theorem EndsPlain.of_append (ends : EndsPlain (cs ++ bs)) : EndsPlain bs := by
  intro c mem
  apply ends c
  rw [List.getLast?_append, Option.mem_def.mp mem]
  rfl

/-- A text that does not end with a blank does not consist of blanks. -/
theorem EndsPlain.exists_front (ends : EndsPlain cs) (nonempty : cs ≠ []) :
    ∃ c rest, cs.dropWhile isBlank = c :: rest := by
  apply List.exists_cons_of_ne_nil
  intro none
  have last := ends (cs.getLast nonempty) (List.getLast?_eq_some_getLast nonempty)
  rw [List.dropWhile_eq_nil_iff.mp none _ (List.getLast_mem nonempty)] at last
  cases last

end Blanks

/-! ## The loop -/

section Loop

variable {cs rest : List Char} {c : Char} {read : List Token}

theorem scan_nil (read : List Token) : scan read [] = some (.ok read) := by
  rw [scan, if_pos rfl]

/-- What a match is taken for. -/
theorem scan_of_best? (nonempty : cs ≠ []) {w : Way Lexeme} (best : tokenPattern.best? cs = some w) :
    scan read cs =
      match w.groups with
      | [(.number, spelling)] => scan (read ++ [.number (String.ofList spelling)]) w.after
      | [(.name, letters)] => scan (read ++ wordTokens letters) w.after
      | [(.symbol, [c])] =>
        match signToken? c with
        | some token => scan (read ++ [token]) w.after
        | none => some (.error (.invalidCharacter c))
      | _ => none := by
  rw [scan, if_neg nonempty]
  split
  · rename_i none
    rw [best] at none
    cases none
  · rename_i v found
    obtain rfl := Option.some.inj (found.symm.trans best)
    rfl

/-- **Matching finds the tokens** of a text that does not end with a blank, behind those that have been
read. It matches wherever it is tried. -/
theorem scan_eq (read : List Token) (cs : List Char) (ends : EndsPlain cs) :
    scan read cs = some ((lex cs).map (read ++ ·)) := by
  induction length : cs.length using Nat.strongRecOn generalizing read cs with
  | ind n ih =>
    subst length
    by_cases nonempty : cs = []
    · subst nonempty
      rw [scan_nil, lex_nil]
      simp [Except.map]
    · obtain ⟨c, rest, front⟩ := ends.exists_front nonempty
      have best := tokenPattern_best? front
      -- what follows a match does not end with a blank either
      have parts := Pattern.matched_append_after (Pattern.mem_of_best? best)
      have again (read : List Token) := ih _ (Pattern.best?_shorter rfl best) read _
        (EndsPlain.of_append (parts.symm ▸ ends)) rfl
      rw [scan_of_best? nonempty best, ← lex_dropWhile, front]
      simp only [Way.followedBy, List.nil_append] at again ⊢
      rcases firstLexeme_cases rest (isBlank_front front) with
        ⟨spelling, after, first, lexed⟩ | ⟨letters, after, first, lexed⟩ | ⟨first, lexed⟩
      · simp only [first] at again ⊢
        rw [again, lexed, map_append_map]
      · simp only [first] at again ⊢
        rw [again, lexed, map_append_map]
      · simp only [first] at again ⊢
        rw [lexed]
        cases signToken? c with
        | none => rfl
        | some token =>
          dsimp only
          rw [again, map_append_map]

/-- **Matching finds the tokens of every text**: the pattern never fails to match. -/
theorem scanText_eq (text : String) : scanText text = some (tokens text) := by
  obtain ⟨bs, parts, blanks⟩ := trimEnd_append (plainSigns text.toList)
  have read : lex (plainSigns text.toList) = lex (trimEnd (plainSigns text.toList)) := by
    conv_lhs => rw [← parts]
    exact lex_append_blanks blanks
  rw [scanText, toList_replaced, scan_eq [] _ (endsPlain_trimEnd _), tokens, read]
  cases lex (trimEnd (plainSigns text.toList)) <;> rfl

end Loop

end ExactAlgebra.Expression
