import ExactAlgebra.Proofs.Expression.Scanner
import Mathlib.Data.List.DropRight

/-!
# No character is lost, and none is left over

The tokens of a text spell it, without its blanks. There are tokens unless the text holds a character
that belongs to none: something else than a blank, a digit, a letter, a sign or a point that belongs
to a number. A point belongs to a number if a digit follows it. If none does, it belongs to the digits
in front of it, as long as they are not decimals themselves. That can be seen from the characters on
both sides of the point, without reading tokens; and the first character that does not fit is the one
that is reported.

## Main statements

* `spelling_of_lex` — the tokens spell the text;
* `Boundary.numeral` — a number fits, and it ends at a place between tokens;
* `accounted` — all characters fit, or the first that does not is reported;
* `tokens_lossless` — whole texts.

## Main definitions

* `EndsWhole`, `Fits` — characters that belong to a token, from what stands around them;
* `AllFit` — a part of a text all of whose characters do;
* `Boundary` — a place between two tokens;
* `Accounted` — what becomes of the characters of a text.
-/

namespace ExactAlgebra.Expression

open ExactAlgebra.Text

/-! ## Spelling -/

section Spelling

variable {cs : List Char} {c : Char} {t : Token}

/-- A character that is a token by itself is its spelling, and it is a letter or a sign. -/
theorem ofChar?_cases (found : Token.ofChar? c = some t) :
    t.text.toList = [c] ∧ (c.isAlpha = true ∨ c ∈ signs) := by
  unfold Token.ofChar? at found
  split at found
  case h_8 =>
    split at found
    · rename_i letter
      cases found
      exact ⟨String.toList_singleton _, .inl letter⟩
    · cases found
  all_goals
    cases found
    exact ⟨rfl, .inr (by decide)⟩

/-- **The tokens spell the text** without its blanks. -/
theorem spelling_of_lex {ts : List Token} (lexed : lex cs = .ok ts) :
    ts.flatMap (fun t => t.text.toList) = cs.filter fun c => !isBlank c := by
  have reading := lexes cs
  generalize lex cs = outcome at lexed reading
  induction reading generalizing ts with
  | nil =>
    cases lexed
    rfl
  | blank blank _ ih => rw [ih lexed, List.filter_cons_of_neg (by simp [blank])]
  | sqrt _ ih =>
    obtain ⟨more, read, rfl⟩ := ok_of_map lexed
    rw [List.flatMap_cons, ih read]
    rfl
  | @number lexeme after _ numeral _ ih =>
    obtain ⟨more, read, rfl⟩ := ok_of_map lexed
    have plain : lexeme.filter (fun c => !isBlank c) = lexeme := by
      rw [List.filter_eq_self]
      intro d mem
      rcases (isNumeral_of_numeral? numeral).of_mem mem with digit | rfl
      · simp [Rational.isBlank_of_isDigit digit]
      · decide
    rw [List.flatMap_cons, ih read, List.filter_append, plain, Token.text, String.toList_ofList]
  | single _ noBlank _ found _ ih =>
    obtain ⟨more, read, rfl⟩ := ok_of_map lexed
    rw [List.flatMap_cons, ih read, (ofChar?_cases found).1,
      List.filter_cons_of_pos (by simp [noBlank]), List.singleton_append]
  | unknown => cases lexed

end Spelling

/-! ## Characters that fit -/

/-- **A text ends with a whole number**: digits, and no point in front of them. -/
def EndsWhole (cs : List Char) : Prop :=
  cs.rtakeWhile isDigit ≠ [] ∧ (cs.rdropWhile isDigit).getLast? ≠ some '.'

/-- **A character that belongs to a token**, with what stands in front of it and behind it. -/
def Fits (before : List Char) (c : Char) (after : List Char) : Prop :=
  isBlank c = true ∨ isDigit c = true ∨ c.isAlpha = true ∨ c ∈ signs ∨
    c = '.' ∧ (after.head?.any isDigit = true ∨ EndsWhole before)

instance (cs : List Char) : Decidable (EndsWhole cs) :=
  inferInstanceAs (Decidable (_ ∧ _))

instance (before : List Char) (c : Char) (after : List Char) : Decidable (Fits before c after) :=
  inferInstanceAs (Decidable (_ ∨ _))

example : Fits ['1'] '.' [] ∧ Fits ['.', '1'] '.' ['2'] ∧ ¬ Fits ['.', '1'] '.' [] ∧
    ¬ Fits [] '.' ['x'] := by
  decide

/-- **All characters of a part of a text fit**, with what stands in front of the part and behind it. -/
def AllFit (before cs after : List Char) : Prop :=
  ∀ front c back, cs = front ++ c :: back → Fits (before ++ front) c (back ++ after)

section Fitting

variable {before cs ds after : List Char} {c : Char}

theorem allFit_nil : AllFit before [] after := by
  intro front c back parts
  cases front <;> cases parts

theorem allFit_cons :
    AllFit before (c :: cs) after ↔ Fits before c (cs ++ after) ∧ AllFit (before ++ [c]) cs after := by
  constructor
  · intro fits
    refine ⟨by simpa using fits [] c cs rfl, fun front d back parts => ?_⟩
    have here := fits (c :: front) d back (congrArg (c :: ·) parts)
    rwa [List.append_assoc]
  · rintro ⟨first, others⟩ front d back parts
    cases front with
    | nil =>
      obtain ⟨rfl, rfl⟩ := List.cons.inj parts
      rwa [List.append_nil]
    | cons e front =>
      obtain ⟨rfl, rest⟩ := List.cons.inj parts
      have here := others front d back rest
      rwa [List.append_assoc] at here

/-- Two parts, one behind the other. -/
theorem allFit_append : AllFit before (cs ++ ds) after ↔
    AllFit before cs (ds ++ after) ∧ AllFit (before ++ cs) ds after := by
  induction cs generalizing before with
  | nil => simp [allFit_nil]
  | cons c cs ih =>
    rw [List.cons_append, allFit_cons, allFit_cons, ih, List.append_assoc, List.append_assoc, and_assoc]
    rfl

/-- Characters that fit wherever they stand. -/
theorem allFit_of_forall (fits : ∀ c ∈ cs, ∀ before after, Fits before c after) :
    AllFit before cs after := by
  rintro front c back rfl
  exact fits c (by simp) _ _

theorem fits_blank (blank : isBlank c = true) : Fits before c after :=
  .inl blank

theorem fits_digit (digit : isDigit c = true) : Fits before c after :=
  .inr (.inl digit)

theorem fits_letter (letter : c.isAlpha = true) : Fits before c after :=
  .inr (.inr (.inl letter))

theorem fits_sign (sign : c ∈ signs) : Fits before c after :=
  .inr (.inr (.inr (.inl sign)))

theorem fits_point (belongs : after.head?.any isDigit = true ∨ EndsWhole before) :
    Fits before '.' after :=
  .inr (.inr (.inr (.inr ⟨rfl, belongs⟩)))

end Fitting

/-! ## Between two tokens -/

/-- **A place between two tokens**, with what stands in front of it and what is to be read. A digit
does not continue a number, and neither does a point. -/
structure Boundary (before rest : List Char) : Prop where
  digit : ∀ d ∈ rest.head?, isDigit d = true → ∀ c ∈ before.getLast?, isDigit c = false ∧ c ≠ '.'
  point : rest.head? = some '.' → ¬ EndsWhole before

section Places

variable {before ds rest cs lexeme after : List Char} {c : Char}

/-- What stands in front of digits. -/
theorem rdropWhile_append_digits (digits : ∀ d ∈ ds, isDigit d = true) :
    (before ++ ds).rdropWhile isDigit = before.rdropWhile isDigit := by
  have back : ∀ d ∈ ds.reverse, isDigit d = true := fun d mem => digits d (List.mem_reverse.mp mem)
  rw [List.rdropWhile, List.rdropWhile, List.reverse_append, List.dropWhile_append_of_pos back]

/-- A text that ends with something else than a digit. -/
theorem not_endsWhole_of_last (noDigit : isDigit c = false) : ¬ EndsWhole (before ++ [c]) := by
  rintro ⟨digits, -⟩
  rw [List.rtakeWhile_concat_neg _ _ _ (by simp [noDigit])] at digits
  exact digits rfl

theorem Boundary.start (rest : List Char) : Boundary [] rest :=
  ⟨nofun, fun _ whole => whole.1 rfl⟩

/-- **Behind a character** that belongs to no number. -/
theorem Boundary.last (noDigit : isDigit c = false) (noPoint : c ≠ '.') (rest : List Char) :
    Boundary (before ++ [c]) rest := by
  refine ⟨fun d _ _ e mem => ?_, fun _ => not_endsWhole_of_last noDigit⟩
  rw [List.getLast?_concat] at mem
  obtain rfl := Option.some.inj mem
  exact ⟨noDigit, noPoint⟩

/-- Digits behind a point are no whole number. -/
theorem not_endsWhole_of_point (digits : ∀ d ∈ ds, isDigit d = true) :
    ¬ EndsWhole (before ++ '.' :: ds) := by
  rintro ⟨-, front⟩
  rw [List.append_cons, rdropWhile_append_digits digits,
    List.rdropWhile_concat_neg _ _ _ (by decide), List.getLast?_concat] at front
  exact front rfl

/-- Digits that follow a boundary are a whole number. -/
theorem Boundary.endsWhole (boundary : Boundary before (ds ++ rest)) (nonempty : ds ≠ [])
    (digits : ∀ d ∈ ds, isDigit d = true) : EndsWhole (before ++ ds) := by
  obtain ⟨d, more, rfl⟩ := List.exists_cons_of_ne_nil nonempty
  have front := boundary.digit d rfl (digits d List.mem_cons_self)
  have stays : before.rdropWhile isDigit = before := by
    rw [List.rdropWhile_eq_self_iff]
    intro some
    simp [(front _ (List.getLast?_eq_some_getLast some)).1]
  constructor
  · rw [ne_eq, List.rtakeWhile_eq_nil_iff, not_forall]
    refine ⟨by simp, ?_⟩
    rw [not_not, List.getLast_append_of_ne_nil _ (List.cons_ne_nil d more)]
    exact digits _ (List.getLast_mem _)
  · rw [rdropWhile_append_digits digits, stays]
    intro point
    exact (front '.' point).2 rfl

/-- **A number fits, and it ends where it is read to.** -/
theorem Boundary.numeral (boundary : Boundary before cs) (numeral : numeral? cs = some (lexeme, after)) :
    AllFit before lexeme after ∧ Boundary (before ++ lexeme) after := by
  have digits (ds : List Char) : ∀ d ∈ ds.takeWhile isDigit, isDigit d = true :=
    fun d mem => List.mem_takeWhile_imp mem
  have allFit (ds before after : List Char) : AllFit before (ds.takeWhile isDigit) after :=
    allFit_of_forall fun d mem _ _ => fits_digit (digits ds d mem)
  -- digits end where no digit follows
  have noDigit (ds : List Char) (d : Char) (mem : d ∈ (ds.dropWhile isDigit).head?) :
      isDigit d = false := by
    have behind := List.head?_dropWhile_not isDigit ds
    rwa [Option.mem_def.mp mem] at behind
  have whole : cs.takeWhile isDigit ≠ [] → EndsWhole (before ++ cs.takeWhile isDigit) := by
    intro nonempty
    rw [← List.takeWhile_append_dropWhile (p := isDigit) (l := cs)] at boundary
    exact boundary.endsWhole nonempty (digits cs)
  rcases numeral?_cases numeral with ⟨rest, point, some, rfl, rfl⟩ | ⟨noPoint, some, rfl, rfl⟩
  · have fits : Fits (before ++ cs.takeWhile isDigit) '.'
        (rest.takeWhile isDigit ++ rest.dropWhile isDigit) := by
      by_cases none : cs.takeWhile isDigit = []
      · obtain ⟨d, more, decimals⟩ := List.exists_cons_of_ne_nil (some.resolve_left (absurd none))
        refine fits_point (.inl ?_)
        rw [decimals, List.cons_append, List.head?_cons, Option.any_some]
        exact digits rest d (by rw [decimals]; exact List.mem_cons_self)
      · exact fits_point (.inr (whole none))
    refine ⟨allFit_append.mpr ⟨allFit _ _ _, allFit_cons.mpr ⟨fits, allFit _ _ _⟩⟩, ?_⟩
    refine ⟨fun d mem digit => ?_, fun _ => ?_⟩
    · rw [noDigit rest d mem] at digit
      cases digit
    · rw [← List.append_assoc]
      exact not_endsWhole_of_point (digits rest)
  · refine ⟨allFit _ _ _, fun d mem digit => ?_, fun next => ?_⟩
    · rw [noDigit cs d mem] at digit
      cases digit
    · obtain ⟨rest, parts⟩ := List.head?_eq_some_iff.mp next
      exact absurd parts (noPoint rest)

end Places

/-! ## Whole texts -/

/-- **What becomes of the characters of a text**: they all fit, and there are tokens, or the first that
does not fit is reported. -/
inductive Accounted (before cs : List Char) : Except Error (List Token) → Prop where
  | tokens {ts : List Token} : AllFit before cs [] → Accounted before cs (.ok ts)
  | refused {front : List Char} {c : Char} {after : List Char} : cs = front ++ c :: after →
      AllFit before front (c :: after) → ¬ Fits (before ++ front) c after →
      Accounted before cs (.error (.invalidCharacter c))

section Account

variable {before cs lexeme rest : List Char} {c : Char} {outcome : Except Error (List Token)}

/-- A part that fits, and what follows it. -/
theorem Accounted.behind (fits : AllFit before lexeme rest)
    (follows : Accounted (before ++ lexeme) rest outcome) : Accounted before (lexeme ++ rest) outcome := by
  cases follows with
  | tokens others => exact .tokens (allFit_append.mpr ⟨by rwa [List.append_nil], others⟩)
  | @refused front c after parts others unfit =>
    subst parts
    rw [List.append_assoc] at unfit
    exact .refused (List.append_assoc ..).symm (allFit_append.mpr ⟨fits, others⟩) unfit

theorem Accounted.map (accounted : Accounted before cs outcome) (f : List Token → List Token) :
    Accounted before cs (outcome.map f) := by
  cases accounted with
  | tokens all => exact .tokens all
  | refused parts others unfit => exact .refused parts others unfit

/-- A character that fits and belongs to no number, and what follows it. -/
theorem Accounted.cons (fits : Fits before c rest) (noDigit : isDigit c = false) (noPoint : c ≠ '.')
    (follows : Boundary (before ++ [c]) rest → Accounted (before ++ [c]) rest outcome) :
    Accounted before (c :: rest) outcome := by
  have first : AllFit before [c] rest := allFit_cons.mpr ⟨fits, allFit_nil⟩
  exact .behind first (follows (.last noDigit noPoint rest))

/-- A character that is no token by itself, and with which no number begins, does not fit. -/
theorem not_fits (boundary : Boundary before (c :: rest)) (noBlank : isBlank c = false)
    (noNumeral : numeral? (c :: rest) = none) (unknown : Token.ofChar? c = none) :
    ¬ Fits before c rest := by
  obtain ⟨noDigit, noDecimals⟩ := numeral?_none noNumeral
  rintro (blank | digit | letter | sign | ⟨rfl, decimals | whole⟩)
  · exact Bool.false_ne_true (noBlank.symm.trans blank)
  · exact Bool.false_ne_true (noDigit.symm.trans digit)
  · rw [ofChar?_letter letter] at unknown
    cases unknown
  · have known : signs.all (fun c => (Token.ofChar? c).isSome) = true := rfl
    have found := List.all_eq_true.mp known c sign
    rw [unknown] at found
    cases found
  · exact Bool.false_ne_true ((noDecimals rfl).symm.trans decimals)
  · exact boundary.point rfl whole

/-- **The characters of a text are accounted for.** -/
theorem accounted (boundary : Boundary before cs) : Accounted before cs (lex cs) := by
  have reading := lexes cs
  generalize lex cs = outcome at reading ⊢
  induction reading generalizing before with
  | nil => exact .tokens allFit_nil
  | @blank c rest _ blank _ ih =>
    have noPoint : c ≠ '.' := by
      rintro rfl
      exact absurd blank (by decide)
    exact .cons (fits_blank blank) (isDigit_blank blank) noPoint ih
  | @sqrt rest _ _ ih =>
    have letters : ['s', 'q', 'r', 't'].all Char.isAlpha = true := rfl
    have fits : AllFit before ['s', 'q', 'r', 't'] rest :=
      allFit_of_forall fun c mem _ _ => fits_letter (List.all_eq_true.mp letters c mem)
    have follows : Boundary (before ++ ['s', 'q', 'r'] ++ ['t']) rest := .last rfl (by decide) rest
    rw [List.append_assoc] at follows
    exact .map (.behind fits (ih follows)) _
  | number numeral _ ih =>
    obtain ⟨fits, follows⟩ := boundary.numeral numeral
    exact .map (.behind fits (ih follows)) _
  | @single c rest _ _ _ noBlank noNumeral found _ ih =>
    obtain ⟨-, letter | sign⟩ := ofChar?_cases found
    · have noPoint : c ≠ '.' := ne_of_isAlpha letter (by decide)
      exact .map (.cons (fits_letter letter) (isDigit_letter letter) noPoint ih) _
    · have noPoint : c ≠ '.' := by
        rintro rfl
        exact absurd sign (by decide)
      exact .map (.cons (fits_sign sign) (numeral?_none noNumeral).1 noPoint ih) _
  | unknown noBlank noNumeral unknown =>
    have unfit := not_fits boundary noBlank noNumeral unknown
    rw [← List.append_nil before] at unfit
    exact .refused rfl allFit_nil unfit

end Account

end ExactAlgebra.Expression
