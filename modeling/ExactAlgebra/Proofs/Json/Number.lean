import ExactAlgebra.Json.Print
import ExactAlgebra.Json.Token
import ExactAlgebra.Proofs.Decimal.Shortest

/-!
# Numbers in JSON, read back

A number is read up to the first character that does not belong to it, and in a file it is followed
by a comma or a line end. An integer is written as it is read. A double is written in positional
notation or with an exponent; both spell the same number, and that number is rounded to the double.

## Main statements

* `magnitude?_whole`, `magnitude?_point`, `magnitude?_exponent` — the three ways to spell a number;
* `number?_intChars` — integers;
* `number?_finiteChars` — doubles.

## Main definitions

* `IsWhole` — the digits that may stand in front of the point;
* `EndsNumber` — what does not continue a number;
* `Spells` — a text that is read as a number of a given value.
-/

namespace ExactAlgebra.Json

open ExactAlgebra.Text
open ExactAlgebra.Rational (tenPow)
open ExactAlgebra.Binary64

/-! ## Digits -/

/-- Digits as they are written. -/
def digitChars (ds : List ℕ) : List Char :=
  ds.map digitChar

/-- **The digits in front of a point**: a zero by itself, or digits that begin with another one. -/
def IsWhole (ds : List ℕ) : Prop :=
  ds = [0] ∨ ∃ d rest, ds = d :: rest ∧ d ≠ 0

theorem IsWhole.ne_nil {ds : List ℕ} (whole : IsWhole ds) : ds ≠ [] := by
  rcases whole with rfl | ⟨d, rest, rfl, -⟩ <;> simp

/-- **The digits of a number** do not begin with a zero, but for zero itself. -/
theorem natChars_whole (n : ℕ) :
    ∃ ds, natChars n = digitChars ds ∧ IsWhole ds ∧ (∀ d ∈ ds, d < 10) ∧ ofDigits ds = n := by
  induction n using Nat.strongRecOn with
  | ind n ih =>
    rw [natChars_step]
    split
    · rename_i small
      refine ⟨[n], rfl, ?_, by simpa using small, by simp [ofDigits]⟩
      by_cases zero : n = 0
      · exact .inl (by rw [zero])
      · exact .inr ⟨n, [], rfl, zero⟩
    · rename_i large
      obtain ⟨ds, written, whole, digits, value⟩ := ih (n / 10) (by omega)
      refine ⟨ds ++ [n % 10], ?_, ?_, ?_, ?_⟩
      · rw [written, digitChars, digitChars, List.map_append]
        rfl
      · rcases whole with rfl | ⟨d, rest, rfl, nonzero⟩
        · simp only [ofDigits, List.foldl_cons, List.foldl_nil] at value
          omega
        · exact .inr ⟨d, rest ++ [n % 10], rfl, nonzero⟩
      · intro d mem
        rcases List.mem_append.mp mem with mem | mem
        · exact digits d mem
        · rw [List.mem_singleton.mp mem]
          omega
      · rw [Rational.ofDigits_append, value]
        simp only [ofDigits, List.foldl_cons, List.foldl_nil, List.length_singleton]
        omega

theorem decimalDigit?_digitChar {d : ℕ} (digit : d < 10) :
    decimalDigit? (digitChar d) = some d := by
  match d, digit with
  | 0, _ | 1, _ | 2, _ | 3, _ | 4, _ | 5, _ | 6, _ | 7, _ | 8, _ | 9, _ => decide

/-- Whether a text does not begin with a digit. -/
def EndsDigits (rest : List Char) : Prop :=
  ∀ c ∈ rest.head?, decimalDigit? c = none

/-- **Digits are read** up to the first other character. -/
theorem decimalDigits_digits {ds : List ℕ} (digits : ∀ d ∈ ds, d < 10) {rest : List Char}
    (ends : EndsDigits rest) : decimalDigits (digitChars ds ++ rest) = (ds, rest) := by
  induction ds with
  | nil =>
    cases rest with
    | nil => rfl
    | cons c rest =>
      rw [digitChars, List.map_nil, List.nil_append, decimalDigits, ends c rfl]
  | cons d ds ih =>
    obtain ⟨digit, digits⟩ := List.forall_mem_cons.mp digits
    rw [digitChars, List.map_cons, List.cons_append, decimalDigits, decimalDigit?_digitChar digit]
    simp only [digitChars] at ih
    simp only [ih digits]

theorem wholeDigits?_digits {ds : List ℕ} (whole : IsWhole ds) (digits : ∀ d ∈ ds, d < 10)
    {rest : List Char} (ends : EndsDigits rest) :
    wholeDigits? (digitChars ds ++ rest) = some (ds, rest) := by
  rw [wholeDigits?, decimalDigits_digits digits ends]
  rcases whole with rfl | ⟨d, more, rfl, nonzero⟩
  · rfl
  · cases d with
    | zero => exact absurd rfl nonzero
    | succ d => rfl

theorem placeDigits_none {rest : List Char} (noPoint : ∀ c ∈ rest.head?, c ≠ '.') :
    placeDigits rest = ([], rest) := by
  match rest with
  | [] => rfl
  | c :: rest =>
    unfold placeDigits
    split
    · rename_i same
      exact absurd (List.cons.inj same).1 (noPoint c rfl)
    · rfl

theorem placeDigits_point {es : List ℕ} (some : es ≠ []) (places : ∀ d ∈ es, d < 10)
    {rest : List Char} (ends : EndsDigits rest) :
    placeDigits ('.' :: (digitChars es ++ rest)) = (es, rest) := by
  rw [placeDigits, decimalDigits_digits places ends]
  cases es with
  | nil => exact absurd rfl some
  | cons e es => rfl

/-! ## Spellings -/

/-- **What does not continue a number.** -/
def EndsNumber (rest : List Char) : Prop :=
  ∀ c ∈ rest.head?, decimalDigit? c = none ∧ c ≠ '.' ∧ c ≠ 'e' ∧ c ≠ 'E'

namespace EndsNumber

variable {rest : List Char}

theorem endsDigits (ends : EndsNumber rest) : EndsDigits rest :=
  fun c mem => (ends c mem).1

theorem placeDigits (ends : EndsNumber rest) : placeDigits rest = ([], rest) :=
  placeDigits_none fun c mem => (ends c mem).2.1

theorem exponent? (ends : EndsNumber rest) : exponent? rest = none := by
  match rest with
  | [] => rfl
  | c :: rest =>
    obtain ⟨-, -, lower, upper⟩ := ends c rfl
    rw [Json.exponent?, if_neg (by simp [lower, upper])]

end EndsNumber

section Spellings

variable {ds es : List ℕ} (whole : IsWhole ds) (digits : ∀ d ∈ ds, d < 10)
variable (negative : Bool) {rest : List Char}

include whole digits

theorem magnitude?_whole (ends : EndsNumber rest) :
    magnitude? negative (digitChars ds ++ rest) = some (.int (signedInt negative ds), rest) := by
  rw [magnitude?, wholeDigits?_digits whole digits ends.endsDigits]
  simp only [ends.placeDigits, ends.exponent?]
  rfl

/-- **A number with places** behind a point. -/
theorem magnitude?_point (some : es ≠ []) (places : ∀ d ∈ es, d < 10) (ends : EndsNumber rest) :
    magnitude? negative (digitChars ds ++ '.' :: (digitChars es ++ rest)) =
      Option.some
        (.float (.ofDecimal negative (ofDigits (ds ++ es)) (-(es.length : ℤ))), rest) := by
  have point : EndsDigits ('.' :: (digitChars es ++ rest)) := by
    rintro c ⟨⟩
    decide
  rw [magnitude?, wholeDigits?_digits whole digits point]
  simp only [placeDigits_point some places ends.endsDigits, ends.exponent?, numberOf, if_neg some]

/-- The exponent of a number, as it is written. -/
def exponentChars (negative : Bool) (fs : List ℕ) : List Char :=
  'e' :: (if negative then '-' else '+') :: digitChars fs

omit whole digits in
theorem exponent?_chars (below : Bool) {fs : List ℕ} (some : fs ≠ [])
    (digits : ∀ d ∈ fs, d < 10) (ends : EndsNumber rest) :
    exponent? (exponentChars below fs ++ rest) = Option.some (signedInt below fs, rest) := by
  have read := decimalDigits_digits digits ends.endsDigits
  cases fs with
  | nil => exact absurd rfl some
  | cons f fs =>
    cases below <;> simp [exponentChars, exponent?, sign, read]

/-- **A number with an exponent**, and with places or without. -/
theorem magnitude?_exponent (places : ∀ d ∈ es, d < 10) (below : Bool) {fs : List ℕ}
    (some : fs ≠ []) (power : ∀ d ∈ fs, d < 10) (ends : EndsNumber rest) :
    magnitude? negative (digitChars ds ++ ((if es = [] then [] else '.' :: digitChars es) ++
        (exponentChars below fs ++ rest))) =
      Option.some (.float (.ofDecimal negative (ofDigits (ds ++ es))
        (signedInt below fs - (es.length : ℤ))), rest) := by
  have read := exponent?_chars below some power ends
  have letter : EndsDigits (exponentChars below fs ++ rest) := by
    rintro c ⟨⟩
    decide
  by_cases missing : es = []
  · subst missing
    have noPoint : placeDigits (exponentChars below fs ++ rest) =
        ([], exponentChars below fs ++ rest) := by
      apply placeDigits_none
      rintro c ⟨⟩
      decide
    rw [if_pos rfl, List.nil_append, magnitude?, wholeDigits?_digits whole digits letter]
    simp only [noPoint, read, numberOf]
  · have point : EndsDigits ('.' :: (digitChars es ++ (exponentChars below fs ++ rest))) := by
      rintro c ⟨⟩
      decide
    rw [if_neg missing, List.cons_append, magnitude?, wholeDigits?_digits whole digits point]
    simp only [placeDigits_point missing places letter, read, numberOf]

end Spellings

/-! ## Integers -/

/-- A text that begins with a digit begins with no sign. -/
theorem number?_digits {ds : List ℕ} (whole : IsWhole ds) (digits : ∀ d ∈ ds, d < 10)
    (rest : List Char) :
    number? (digitChars ds ++ rest) = magnitude? false (digitChars ds ++ rest) := by
  cases ds with
  | nil => exact absurd rfl whole.ne_nil
  | cons d ds =>
    have digit := decimalDigit?_digitChar (digits d List.mem_cons_self)
    rw [digitChars, List.map_cons, List.cons_append, number?]
    intro rest same
    rw [(List.cons.inj same).1] at digit
    cases digit

/-- Sign and digits make up the integer. -/
theorem signedInt_decide {n : ℤ} {ds : List ℕ} (value : ofDigits ds = n.natAbs) :
    signedInt (decide (n < 0)) ds = n := by
  rw [signedInt, value]
  by_cases negative : n < 0
  · rw [if_pos (decide_eq_true negative)]
    omega
  · rw [if_neg (by simp [negative])]
    omega

/-- **An integer is read back.** -/
theorem number?_intChars (n : ℤ) {rest : List Char} (ends : EndsNumber rest) :
    number? (intChars n ++ rest) = some (.int n, rest) := by
  obtain ⟨ds, written, whole, digits, value⟩ := natChars_whole n.natAbs
  have read : magnitude? (decide (n < 0)) (digitChars ds ++ rest) = some (.int n, rest) := by
    rw [magnitude?_whole whole digits _ ends, signedInt_decide value]
  rw [intChars, written]
  split
  · rename_i negative
    rw [decide_eq_true negative] at read
    exact read
  · rename_i positive
    rw [decide_eq_false positive] at read
    rw [number?_digits whole digits, read]

/-! ## Doubles -/

theorem digitChars_append (ds es : List ℕ) :
    digitChars (ds ++ es) = digitChars ds ++ digitChars es :=
  List.map_append

theorem digitChars_zeros (n : ℕ) : digitChars (List.replicate n 0) = zeros n := by
  rw [digitChars, List.map_replicate]
  rfl

theorem ofDigits_zeros (n : ℕ) : ofDigits (List.replicate n 0) = 0 := by
  induction n with
  | zero => rfl
  | succ n ih => rw [List.replicate_succ', Rational.ofDigits_append, ih, ofDigits]; rfl

theorem lt_of_mem_zeros (n : ℕ) : ∀ c ∈ List.replicate n 0, c < 10 := by
  intro c mem
  rw [List.eq_of_mem_replicate mem]
  omega

theorem ofDigits_zero_cons (ds : List ℕ) : ofDigits (0 :: ds) = ofDigits ds :=
  rfl

theorem ofDigits_append_zeros (n : ℕ) (ds : List ℕ) :
    ofDigits (List.replicate n 0 ++ ds) = ofDigits ds := by
  rw [Rational.ofDigits_append, ofDigits_zeros, Nat.zero_mul, Nat.zero_add]

/-- **A spelling of a number**: what is read has its value. -/
def Spells (cs : List Char) (q : ℚ) : Prop :=
  ∀ negative rest, EndsNumber rest → ∃ n e,
    magnitude? negative (cs ++ rest) = some (.float (.ofDecimal negative n e), rest) ∧
      (n : ℚ) * tenPow e = q

theorem spells_point {ds es : List ℕ} (whole : IsWhole ds) (digits : ∀ d ∈ ds, d < 10)
    (some : es ≠ []) (places : ∀ d ∈ es, d < 10) :
    Spells (digitChars ds ++ '.' :: digitChars es)
      (ofDigits (ds ++ es) * tenPow (-(es.length : ℤ))) := by
  intro negative rest ends
  refine ⟨_, _, ?_, rfl⟩
  rw [List.append_assoc, List.cons_append]
  exact magnitude?_point whole digits negative some places ends

theorem spells_exponent {ds es fs : List ℕ} (whole : IsWhole ds) (digits : ∀ d ∈ ds, d < 10)
    (places : ∀ d ∈ es, d < 10) (below : Bool) (some : fs ≠ []) (power : ∀ d ∈ fs, d < 10) :
    Spells (digitChars ds ++ ((if es = [] then [] else '.' :: digitChars es) ++
        exponentChars below fs))
      (ofDigits (ds ++ es) * tenPow (signedInt below fs - (es.length : ℤ))) := by
  intro negative rest ends
  refine ⟨_, _, ?_, rfl⟩
  rw [List.append_assoc, List.append_assoc]
  exact magnitude?_exponent whole digits negative places below some power ends

section Positional

variable {ds : List ℕ} {p : ℤ}

/-- Zeros stand between the point and the digits. -/
theorem positional_before (before : p ≤ 0) : positional (digitChars ds) p =
    digitChars [0] ++ '.' :: digitChars (List.replicate (-p).toNat 0 ++ ds) := by
  rw [positional, if_pos before, digitChars_append, digitChars_zeros]
  rfl

/-- The point stands between two digits. -/
theorem positional_between (behind : 0 < p) (long : p.toNat < ds.length) :
    positional (digitChars ds) p =
      digitChars (ds.take p.toNat) ++ '.' :: digitChars (ds.drop p.toNat) := by
  have some : (ds.drop p.toNat).map digitChar ≠ [] := by
    rw [Ne, List.map_eq_nil_iff, List.drop_eq_nil_iff]
    omega
  have full : p.toNat - ((ds.take p.toNat).map digitChar).length = 0 := by
    rw [List.length_map, List.length_take]
    omega
  rw [positional, if_neg (by omega)]
  simp only [digitChars, ← List.map_take, ← List.map_drop, if_neg some, full, zeros,
    List.replicate_zero, List.append_nil]

/-- Zeros stand between the digits and the point, and one behind it. -/
theorem positional_behind (behind : 0 < p) (short : ds.length ≤ p.toNat) :
    positional (digitChars ds) p =
      digitChars (ds ++ List.replicate (p.toNat - ds.length) 0) ++ '.' :: digitChars [0] := by
  rw [positional, if_neg (by omega), digitChars_append, digitChars_zeros]
  simp only [digitChars, ← List.map_take, ← List.map_drop, List.take_of_length_le short,
    List.drop_of_length_le short, List.map_nil, if_pos, List.length_map]
  rfl

end Positional

section Layouts

variable {ds : List ℕ} {d : ℕ} (digits : ∀ c ∈ d :: ds, c < 10) (nonzero : d ≠ 0)

include digits nonzero

/-- **Positional notation** spells the number with its point at the given position. -/
theorem spells_positional (p : ℤ) : Spells (positional (digitChars (d :: ds)) p)
    (ofDigits (d :: ds) * tenPow (p - (d :: ds).length)) := by
  -- the point stands between the digits, behind all of them, or in front of them
  rcases lt_or_ge 0 p with behind | before
  · obtain ⟨k, eq⟩ : ∃ k, p.toNat = k + 1 := ⟨p.toNat - 1, by omega⟩
    rcases lt_or_ge p.toNat (d :: ds).length with long | short
    · have some : (d :: ds).drop p.toNat ≠ [] := by
        rw [Ne, List.drop_eq_nil_iff]
        omega
      have whole : IsWhole ((d :: ds).take p.toNat) := by
        rw [eq]
        exact .inr ⟨d, ds.take k, rfl, nonzero⟩
      have spells := spells_point whole (fun c mem => digits c (List.mem_of_mem_take mem)) some
        fun c mem => digits c (List.mem_of_mem_drop mem)
      rw [List.take_append_drop, List.length_drop] at spells
      rw [positional_between behind long]
      convert spells using 3
      omega
    · have whole : IsWhole (d :: ds ++ List.replicate (p.toNat - (d :: ds).length) 0) :=
        .inr ⟨d, _, rfl, nonzero⟩
      have spells := spells_point whole (List.forall_mem_append.mpr ⟨digits, lt_of_mem_zeros _⟩)
        (List.cons_ne_nil 0 []) (by simp)
      rw [Rational.ofDigits_append, Rational.ofDigits_append, ofDigits_zeros] at spells
      rw [positional_behind behind short]
      convert spells using 1
      have power : p - ((d :: ds).length : ℕ) = ((p.toNat - (d :: ds).length : ℕ) : ℤ) := by omega
      rw [power, tenPow, tenPow, zpow_natCast, List.length_replicate, zpow_neg]
      simp [ofDigits]
  · have spells := spells_point (.inl rfl : IsWhole [0]) (by simp)
      (by simp : List.replicate (-p).toNat 0 ++ d :: ds ≠ [])
      (List.forall_mem_append.mpr ⟨lt_of_mem_zeros _, digits⟩)
    rw [List.singleton_append, ofDigits_zero_cons, ofDigits_append_zeros, List.length_append,
      List.length_replicate] at spells
    rw [positional_before before]
    convert spells using 3
    omega

/-- **Notation with an exponent** spells the number with its point at the given position. -/
theorem spells_scientific (p : ℤ) : Spells (scientific layout (digitChars (d :: ds)) p)
    (ofDigits (d :: ds) * tenPow (p - (d :: ds).length)) := by
  obtain ⟨fs, written, power, digitsOfPower, value⟩ := natChars_whole (p - 1).natAbs
  obtain ⟨digit, places⟩ := List.forall_mem_cons.mp digits
  have text : scientific layout (digitChars (d :: ds)) p =
      digitChars [d] ++ ((if ds = [] then [] else '.' :: digitChars ds) ++
        exponentChars (decide (p - 1 < 0)) (List.replicate (2 - fs.length) 0 ++ fs)) := by
    simp only [scientific, layout, written, exponentChars, digitChars_append, digitChars_zeros]
    simp [digitChars]
  have spells := spells_exponent (.inr ⟨d, [], rfl, nonzero⟩ : IsWhole [d]) (by simpa using digit)
    places (decide (p - 1 < 0)) (by simp [power.ne_nil])
    (List.forall_mem_append.mpr ⟨lt_of_mem_zeros (2 - fs.length), digitsOfPower⟩)
  rw [signedInt_decide (by rw [ofDigits_append_zeros, value])] at spells
  have exponent : p - ((d :: ds).length : ℤ) = p - 1 - ds.length := by
    rw [List.length_cons]
    omega
  rw [text, exponent]
  exact spells

end Layouts

/-- **A magnitude is read back** as the double that it is. -/
theorem magnitude?_magnitudeChars {q : ℚ} (double : nearest? q = some q) (negative : Bool)
    {rest : List Char} (ends : EndsNumber rest) :
    magnitude? negative (magnitudeChars layout q ++ rest) =
      some (.float (.finite negative q), rest) := by
  rcases (nonneg_of_nearest? double).eq_or_lt with rfl | pos
  · exact magnitude?_point (.inl rfl : IsWhole [0]) (by simp) negative (List.cons_ne_nil 0 [])
      (by simp) ends
  obtain ⟨m, some, written, back⟩ := shortest_spec pos double
  obtain ⟨ds, digits, whole, small, value⟩ := natChars_whole m
  obtain ⟨d, ds, rfl, nonzero⟩ : ∃ d rest, ds = d :: rest ∧ d ≠ 0 := by
    rcases whole with rfl | whole
    · exact absurd value.symm some
    · exact whole
  -- either layout spells the decimal that was found, and that is rounded to the double
  have spells : Spells (magnitudeChars layout q)
      (m * tenPow ((shortest q).2 - (natChars m).length)) := by
    rw [magnitudeChars, if_neg pos.ne']
    dsimp only
    rw [written, digits, ← value, digitChars, List.length_map]
    split
    · exact spells_positional small nonzero _
    · exact spells_scientific small nonzero _
  obtain ⟨n, e, read, same⟩ := spells negative rest ends
  rw [read, ofDecimal_eq negative pos.ne' (same ▸ back)]

/-- What is read as a magnitude begins with a digit. -/
theorem head_of_magnitude? {negative : Bool} {cs : List Char} {found : Json × List Char}
    (read : magnitude? negative cs = some found) :
    ∃ c d rest, cs = c :: rest ∧ decimalDigit? c = some d := by
  match cs with
  | [] => cases read
  | c :: rest =>
    cases digit : decimalDigit? c with
    | some d => exact ⟨c, d, rest, rfl, digit⟩
    | none =>
      rw [magnitude?, wholeDigits?, decimalDigits, digit] at read
      cases read

/-- The text of a double that has digits. -/
def finiteChars (negative : Bool) (q : ℚ) : List Char :=
  if negative then '-' :: magnitudeChars layout q else magnitudeChars layout q

/-- **A double is read back.** -/
theorem number?_finiteChars {q : ℚ} (double : nearest? q = some q) (negative : Bool)
    {rest : List Char} (ends : EndsNumber rest) :
    number? (finiteChars negative q ++ rest) = some (.float (.finite negative q), rest) := by
  have read := magnitude?_magnitudeChars double negative ends
  cases negative with
  | true => exact read
  | false =>
    obtain ⟨c, d, more, eq, digit⟩ := head_of_magnitude? read
    rw [finiteChars, if_neg (by decide), eq, number?, ← eq, read]
    intro rest same
    rw [(List.cons.inj same).1] at digit
    cases digit

end ExactAlgebra.Json
