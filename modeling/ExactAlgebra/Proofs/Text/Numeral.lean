import ExactAlgebra.Rational.Basic
import Mathlib.Data.Rat.Defs
import Mathlib.Data.List.Induction
import Mathlib.Data.List.TakeWhile
import Mathlib.Algebra.Order.Field.Rat
import Mathlib.Tactic.FieldSimp
import Mathlib.Tactic.Ring

/-!
# Decimal numerals

A natural number is written with its decimal digits, highest first. Reading them gives the number
back, whatever follows that does not continue a numeral. A numeral with a point denotes the number
that it spells, exactly.

## Main statements

* `natChars_eq` — the digits that are written;
* `isDigit_natChars` — every character of a numeral is a digit;
* `digitGroup_digits` — reading a numeral;
* `Rational.IsNumeral.parse` — decimal numerals;
* `Rational.parse_natText` — a whole number as a rational.

## Main definitions

* `Rational.IsNumeral`, `Rational.decimal` — decimal numerals, and the numbers that they spell.
-/

namespace ExactAlgebra

namespace Text

/-! ## Writing -/

theorem natCharsInto_eq (n : Nat) (written : List Char) :
    natCharsInto n written = natChars n ++ written := by
  induction n using Nat.strongRecOn generalizing written with
  | ind n ih =>
    conv_lhs => rw [natCharsInto]
    conv_rhs => rw [natChars, natCharsInto]
    split
    · rfl
    · have smaller : n / 10 < n := by omega
      rw [ih _ smaller, ih _ smaller [_], List.append_assoc]
      rfl

/-- **The digits of a number**: those of a tenth, and the last one. -/
theorem natChars_step (n : Nat) :
    natChars n = if n < 10 then [digitChar n] else natChars (n / 10) ++ [digitChar (n % 10)] := by
  rw [natChars, natCharsInto]
  split
  · rfl
  · exact natCharsInto_eq _ _

/-- **A numeral is a list of digits with the value of the number.** -/
theorem natChars_eq (n : Nat) :
    ∃ ds, natChars n = ds.map digitChar ∧ ds ≠ [] ∧ (∀ d ∈ ds, d < 10) ∧ ofDigits ds = n := by
  induction n using Nat.strongRecOn with
  | ind n ih =>
    rw [natChars_step]
    split
    · rename_i small
      exact ⟨[n], rfl, by simp, by simpa using small, by simp [ofDigits]⟩
    · rename_i large
      obtain ⟨ds, written, _, digits, value⟩ := ih (n / 10) (by omega)
      refine ⟨ds ++ [n % 10], by simp [written], by simp, ?_, ?_⟩
      · intro d mem
        rcases List.mem_append.mp mem with mem | mem
        · exact digits d mem
        · obtain rfl := List.mem_singleton.mp mem
          omega
      · rw [ofDigits] at value ⊢
        rw [List.foldl_append, value]
        simp only [List.foldl_cons, List.foldl_nil]
        omega

theorem isDigit_digitChar {d : Nat} (small : d < 10) : isDigit (digitChar d) = true := by
  rw [isDigit, digitValue?_digitChar small]
  rfl

/-- Every character of a numeral is a digit. -/
theorem isDigit_natChars {n : Nat} {c : Char} (mem : c ∈ natChars n) : isDigit c = true := by
  obtain ⟨ds, written, -, digits, -⟩ := natChars_eq n
  rw [written] at mem
  obtain ⟨d, inside, rfl⟩ := List.mem_map.mp mem
  exact isDigit_digitChar (digits d inside)

theorem natChars_ne_nil (n : Nat) : natChars n ≠ [] := by
  obtain ⟨ds, written, some, -, -⟩ := natChars_eq n
  rw [written]
  simpa using some

/-! ## Reading -/

/-- In front of the ASCII digits there are no digits. -/
theorem digitValue?_below {c : Char} (below : c.toNat < 48) : digitValue? c = none := by
  have starts : ∀ start ∈ digitZeros, 48 ≤ start := by decide
  rw [digitValue?, Option.map_eq_none_iff, List.find?_eq_none]
  intro start mem
  have := starts start mem
  simp only [Bool.and_eq_true, decide_eq_true_eq]
  omega

/-- **A text does not go on with a digit or an underscore.** -/
def EndsNumeral (rest : List Char) : Prop :=
  ∀ c ∈ rest.head?, digitValue? c = none ∧ c ≠ '_'

theorem moreDigits_of_ends {rest : List Char} (ends : EndsNumeral rest) :
    moreDigits rest = ([], rest) := by
  match rest with
  | [] => rfl
  | [c] =>
    obtain ⟨none, -⟩ := ends c rfl
    simp [moreDigits, none]
  | c :: d :: rest =>
    obtain ⟨none, noUnderscore⟩ := ends c rfl
    rw [moreDigits]
    · simp [none]
    · rintro _ _ rfl _
      exact noUnderscore rfl

theorem moreDigits_cons {c : Char} {d : Nat} (digit : digitValue? c = some d) (rest : List Char) :
    moreDigits (c :: rest) = (d :: (moreDigits rest).1, (moreDigits rest).2) := by
  have noUnderscore : c ≠ '_' := by
    rintro rfl
    cases digit
  rw [moreDigits]
  · rw [digit]
  · rintro _ _ same _
    exact noUnderscore same

/-- The values of the digits in a text. -/
def digitValues (cs : List Char) : List Nat :=
  cs.filterMap digitValue?

/-- The digits of a numeral are read one after the other. -/
theorem moreDigits_digits {cs : List Char} (digits : ∀ c ∈ cs, isDigit c = true) {rest : List Char}
    (ends : EndsNumeral rest) : moreDigits (cs ++ rest) = (digitValues cs, rest) := by
  induction cs with
  | nil => exact moreDigits_of_ends ends
  | cons c cs ih =>
    obtain ⟨digit, digits⟩ := List.forall_mem_cons.mp digits
    obtain ⟨d, value⟩ := Option.isSome_iff_exists.mp digit
    rw [List.cons_append, moreDigits_cons value, ih digits, digitValues, digitValues,
      List.filterMap_cons_some value]

/-- **Digits of any script are a digit group**, whatever follows them. -/
theorem digitGroup_digits {cs : List Char} (nonempty : cs ≠ []) (digits : ∀ c ∈ cs, isDigit c = true)
    {rest : List Char} (ends : EndsNumeral rest) :
    digitGroup (cs ++ rest) = some (digitValues cs, rest) := by
  match cs, nonempty with
  | c :: cs, _ =>
    obtain ⟨digit, digits⟩ := List.forall_mem_cons.mp digits
    obtain ⟨d, value⟩ := Option.isSome_iff_exists.mp digit
    rw [List.cons_append, digitGroup, value, Option.map_some, moreDigits_digits digits ends,
      digitValues, digitValues, List.filterMap_cons_some value]

theorem digitValues_digitChar {ds : List Nat} (digits : ∀ d ∈ ds, d < 10) :
    digitValues (ds.map digitChar) = ds := by
  induction ds with
  | nil => rfl
  | cons d ds ih =>
    obtain ⟨small, digits⟩ := List.forall_mem_cons.mp digits
    rw [digitValues, List.map_cons, List.filterMap_cons_some (digitValue?_digitChar small)]
    exact congrArg (d :: ·) (ih digits)

/-- The digits of a number have the number as their value. -/
theorem ofDigits_natChars (n : Nat) : ofDigits (digitValues (natChars n)) = n := by
  obtain ⟨ds, written, -, digits, value⟩ := natChars_eq n
  rw [written, digitValues_digitChar digits, value]

theorem endsNumeral_nil : EndsNumeral [] := by
  simp [EndsNumeral]

end Text

namespace Rational

open Text

/-- A digit is no space, no sign and no point. -/
theorem ne_of_isDigit {c : Char} (digit : isDigit c = true) :
    c ≠ ' ' ∧ c ≠ '-' ∧ c ≠ '+' ∧ c ≠ '.' := by
  refine ⟨?_, ?_, ?_, ?_⟩ <;>
    · rintro rfl
      exact absurd digit (by decide)

/-- A digit of any script is no blank. -/
theorem isBlank_of_isDigit {c : Char} (digit : isDigit c = true) : isBlank c = false := by
  have table : ∀ start ∈ digitZeros, ∀ d < 10, isBlank (Char.ofNat (start + d)) = false := by
    decide +kernel
  obtain ⟨d, value⟩ := Option.isSome_iff_exists.mp digit
  obtain ⟨start, found, rfl⟩ := Option.map_eq_some_iff.mp value
  have range := List.find?_some found
  rw [Bool.and_eq_true, decide_eq_true_eq, decide_eq_true_eq] at range
  obtain ⟨low, high⟩ := range
  have checked := table start (List.mem_of_find?_eq_some found) (c.toNat - start) (by omega)
  rwa [Nat.add_sub_cancel' low, Char.ofNat_toNat] at checked

theorem sign_of_isDigit {c : Char} (digit : isDigit c = true) (rest : List Char) :
    sign (c :: rest) = (false, c :: rest) := by
  obtain ⟨-, noMinus, noPlus, -⟩ := ne_of_isDigit digit
  rw [sign]
  · rintro _ same
    exact noMinus (List.cons.inj same).1
  · rintro _ same
    exact noPlus (List.cons.inj same).1

/-! ## Decimals -/

/-- **A decimal numeral**: digits, and a point with decimals or without. One side of the point may be
empty. -/
inductive IsNumeral : List Char → Prop where
  | whole {cs : List Char} (nonempty : cs ≠ []) (digits : ∀ c ∈ cs, isDigit c = true) : IsNumeral cs
  | point {cs ds : List Char} (nonempty : cs ≠ [] ∨ ds ≠ []) (digits : ∀ c ∈ cs, isDigit c = true)
      (decimals : ∀ c ∈ ds, isDigit c = true) : IsNumeral (cs ++ '.' :: ds)

/-- A decimal numeral consists of digits and a point. -/
theorem IsNumeral.of_mem {cs : List Char} (numeral : IsNumeral cs) {c : Char} (mem : c ∈ cs) :
    isDigit c = true ∨ c = '.' := by
  cases numeral with
  | whole nonempty digits => exact .inl (digits c mem)
  | point nonempty digits decimals =>
    rcases List.mem_append.mp mem with mem | mem
    · exact .inl (digits c mem)
    · rcases List.mem_cons.mp mem with rfl | mem
      · exact .inr rfl
      · exact .inl (decimals c mem)

/-- **The number that a decimal numeral spells**: the whole part, and the decimals as a fraction of a
power of ten. -/
def decimal (cs : List Char) : ℚ :=
  let decimals := (cs.dropWhile (· ≠ '.')).tail
  ofDigits (digitValues (cs.takeWhile (· ≠ '.'))) +
    ofDigits (digitValues decimals) / 10 ^ decimals.length

section Decimals

variable {cs ds : List Char} (digits : ∀ c ∈ cs, isDigit c = true)

include digits

/-- Digits are not points. -/
theorem no_point : ∀ c ∈ cs, decide (c ≠ '.') = true :=
  fun c mem => decide_eq_true (ne_of_isDigit (digits c mem)).2.2.2

theorem decimal_whole : decimal cs = ofDigits (digitValues cs) := by
  unfold decimal
  rw [List.takeWhile_eq_self_iff.mpr (no_point digits), List.dropWhile_eq_nil_iff.mpr (no_point digits)]
  simp [digitValues, ofDigits]

theorem decimal_point : decimal (cs ++ '.' :: ds) =
    ofDigits (digitValues cs) + ofDigits (digitValues ds) / 10 ^ ds.length := by
  unfold decimal
  rw [List.takeWhile_append_of_pos (no_point digits), List.dropWhile_append_of_pos (no_point digits)]
  simp

theorem length_digitValues : (digitValues cs).length = cs.length :=
  List.filterMap_length_eq_length.mpr digits

end Decimals

theorem ofDigits_append (ds es : List Nat) :
    ofDigits (ds ++ es) = ofDigits ds * 10 ^ es.length + ofDigits es := by
  induction es using List.reverseRecOn with
  | nil => simp [ofDigits]
  | append_singleton es e ih =>
    have last (ds : List Nat) : ofDigits (ds ++ [e]) = 10 * ofDigits ds + e := by simp [ofDigits]
    rw [← List.append_assoc, last, last, ih, List.length_append, List.length_singleton]
    ring

/-- In front of a digit or a point there is neither a blank nor a sign. -/
theorem IsNumeral.front {cs : List Char} (numeral : IsNumeral cs) :
    sign (trimStart cs) = (false, cs) := by
  have digit {c : Char} (digit : isDigit c = true) (rest : List Char) :
      sign (trimStart (c :: rest)) = (false, c :: rest) := by
    rw [trimStart, List.dropWhile_cons_of_neg (by simp [isBlank_of_isDigit digit]),
      sign_of_isDigit digit]
  cases numeral with
  | whole nonempty digits =>
    match cs, nonempty with
    | c :: rest, _ => exact digit (digits c List.mem_cons_self) rest
  | @point cs ds nonempty digits decimals =>
    match cs with
    | [] => rfl
    | c :: rest => exact digit (digits c List.mem_cons_self) (rest ++ '.' :: ds)

section Point

variable {cs ds : List Char}

/-- The digits in front of a point may be missing, if digits follow it. -/
theorem leading_point (nonempty : cs ≠ [] ∨ ds ≠ []) (digits : ∀ c ∈ cs, isDigit c = true)
    (decimals : ∀ c ∈ ds, isDigit c = true) :
    leading (cs ++ '.' :: ds) = some (digitValues cs, '.' :: ds) := by
  by_cases missing : cs = []
  · subst missing
    have group := digitGroup_digits (nonempty.resolve_left (absurd rfl)) decimals endsNumeral_nil
    rw [List.append_nil] at group
    have point : digitGroup ('.' :: ds) = none := rfl
    unfold leading
    rw [List.nil_append, point]
    show (digitGroup ds).map (fun _ => ([], '.' :: ds)) = some ([], '.' :: ds)
    rw [group]
    rfl
  · have ends : EndsNumeral ('.' :: ds) := by
      rintro c ⟨⟩
      decide
    unfold leading
    rw [digitGroup_digits missing digits ends]

theorem tailOf_point (decimals : ∀ c ∈ ds, isDigit c = true) :
    tailOf ('.' :: ds) = some (.decimal (digitValues ds) 0, []) := by
  have read : places ds = (digitValues ds, []) := by
    by_cases missing : ds = []
    · subst missing
      rfl
    · have group := digitGroup_digits missing decimals endsNumeral_nil
      rw [List.append_nil] at group
      rw [places, group]
      rfl
  simp only [tailOf, read]
  rfl

theorem value?_point (digits : ∀ c ∈ cs, isDigit c = true) (decimals : ∀ c ∈ ds, isDigit c = true) :
    Notation.value? ⟨false, digitValues cs, .decimal (digitValues ds) 0⟩ =
      some (decimal (cs ++ '.' :: ds)) := by
  have scaled : ((ofDigits (digitValues cs ++ digitValues ds) : ℤ) : ℚ) * 10 ^ (0 - (ds.length : ℤ)) =
      ofDigits (digitValues cs) + ofDigits (digitValues ds) / 10 ^ ds.length := by
    rw [ofDigits_append, length_digitValues decimals, zero_sub, zpow_neg, zpow_natCast]
    push_cast
    field_simp
  rw [decimal_point digits, ← scaled, ← length_digitValues decimals]
  rfl

end Point

/-- The parts of a decimal numeral denote the number that it spells. -/
theorem IsNumeral.parts {cs : List Char} (numeral : IsNumeral cs) :
    ∃ n : Notation, Notation.ofChars? cs = some n ∧ n.value? = some (decimal cs) := by
  unfold Notation.ofChars?
  rw [numeral.front]
  cases numeral with
  | whole nonempty digits =>
    have group := digitGroup_digits nonempty digits endsNumeral_nil
    rw [List.append_nil] at group
    refine ⟨⟨false, digitValues cs, .decimal [] 0⟩, ?_, ?_⟩
    · simp only [leading, group]
      rfl
    · rw [decimal_whole digits]
      simp [Notation.value?, signedInt, tenPow]
  | point nonempty digits decimals =>
    refine ⟨_, ?_, value?_point digits decimals⟩
    simp only [leading_point nonempty digits decimals, Option.bind_eq_bind, Option.bind_some,
      tailOf_point decimals]
    rfl

/-- **A decimal numeral denotes the number that it spells.** -/
theorem IsNumeral.parse {cs : List Char} (numeral : IsNumeral cs) :
    parse (String.ofList cs) = .ok (decimal cs) := by
  have noSpace : cs.filter (· ≠ ' ') = cs := by
    rw [List.filter_eq_self]
    intro c mem
    rw [decide_eq_true_eq]
    rcases numeral.of_mem mem with digit | rfl
    · exact (ne_of_isDigit digit).1
    · decide
  have nonempty : cs ≠ [] := by
    cases numeral with
    | whole nonempty digits => exact nonempty
    | point nonempty digits decimals => simp
  obtain ⟨n, found, value⟩ := numeral.parts
  unfold Rational.parse
  rw [String.toList_ofList, noSpace]
  simp only [if_neg nonempty, found, value]

/-- **A numeral denotes its number.** -/
theorem parse_natText (n : Nat) : parse (natText n) = .ok (n : ℚ) := by
  have digits : ∀ c ∈ natChars n, isDigit c = true := fun c mem => isDigit_natChars mem
  rw [natText, (IsNumeral.whole (natChars_ne_nil n) digits).parse, decimal_whole digits,
    ofDigits_natChars]

end Rational

end ExactAlgebra
