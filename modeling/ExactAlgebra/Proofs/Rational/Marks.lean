import ExactAlgebra.Rational.Basic
import Mathlib.Data.List.TakeWhile
import Mathlib.Data.Rat.Init

/-!
# Characters that no number contains

A number is read part by part, and each part leaves the rest of the text over. Brackets and
semicolons, which set off the rows of a matrix, are part of nothing that is read, so they would be
left over at the end.

## Main statements

* `isMark_of_parse` — no number contains a bracket or a semicolon.

## Main definitions

* `isBracket`, `isMark` — brackets, and brackets or semicolons.
-/

namespace ExactAlgebra

open Text

/-- Whether a character is a bracket. -/
def isBracket (c : Char) : Bool :=
  c = '[' || c = ']'

/-- Whether a character is a bracket or a semicolon. -/
def isMark (c : Char) : Bool :=
  isBracket c || c = ';'

namespace Rational

variable {c : Char} {cs after : List Char}

theorem digitValue?_of_isMark (mark : isMark c = true) : digitValue? c = none := by
  simp only [isMark, isBracket, Bool.or_eq_true, decide_eq_true_eq] at mark
  rcases mark with (rfl | rfl) | rfl <;> decide +kernel

theorem isBlank_of_isMark (mark : isMark c = true) : isBlank c = false := by
  simp only [isMark, isBracket, Bool.or_eq_true, decide_eq_true_eq] at mark
  rcases mark with (rfl | rfl) | rfl <;> decide +kernel

/-- A mark is not at the head of what is read, so it comes later. -/
theorem mem_of_mem_cons {d : Char} (mark : isMark c = true) (mem : c ∈ d :: cs)
    (other : isMark d = false) : c ∈ cs := by
  rcases List.mem_cons.mp mem with rfl | mem
  · rw [mark] at other
    cases other
  · exact mem

theorem isMark_of_digitValue? {d : Char} {v : Nat} (digit : digitValue? d = some v) :
    isMark d = false := by
  by_contra mark
  rw [digitValue?_of_isMark (by simpa using mark)] at digit
  cases digit

/-! A mark is left over by each part of a number, and so by a number. -/

theorem mem_moreDigits (mark : isMark c = true) (mem : c ∈ cs) : c ∈ (moreDigits cs).2 := by
  fun_induction moreDigits cs with
  | case1 => exact mem
  | case2 d rest v digit ds after more ih =>
    have inside := mem_of_mem_cons mark (mem_of_mem_cons mark mem (by decide))
      (isMark_of_digitValue? digit)
    simpa only [more] using ih inside
  | case3 d rest none => exact mem
  | case4 d rest _ v digit ds after more ih =>
    simpa only [more] using ih (mem_of_mem_cons mark mem (isMark_of_digitValue? digit))
  | case5 d rest _ none => exact mem

theorem mem_digitGroup {digits : List Nat} (mark : isMark c = true)
    (group : digitGroup cs = some (digits, after)) (mem : c ∈ cs) : c ∈ after := by
  cases cs with
  | nil => cases group
  | cons d rest =>
    obtain ⟨v, digit, same⟩ := Option.map_eq_some_iff.mp group
    obtain rfl : (moreDigits rest).2 = after := congrArg Prod.snd same
    exact mem_moreDigits mark (mem_of_mem_cons mark mem (isMark_of_digitValue? digit))

theorem mem_sign (mark : isMark c = true) (mem : c ∈ cs) : c ∈ (sign cs).2 := by
  unfold sign
  split
  · exact mem_of_mem_cons mark mem (by decide)
  · exact mem_of_mem_cons mark mem (by decide)
  · exact mem

theorem mem_exponent {e : Int} (mark : isMark c = true) (read : exponent cs = some (e, after))
    (mem : c ∈ cs) : c ∈ after := by
  unfold exponent at read
  split at read
  · exact absurd mem List.not_mem_nil
  · split at read
    · rename_i d rest letter
      obtain ⟨⟨ds, left⟩, group, same⟩ := Option.map_eq_some_iff.mp read
      obtain rfl : left = after := congrArg Prod.snd same
      have other : isMark d = false := by rcases letter with rfl | rfl <;> decide
      exact mem_digitGroup mark group (mem_sign mark (mem_of_mem_cons mark mem other))
    · obtain rfl := (Prod.mk.inj (Option.some.inj read)).2
      exact mem

theorem mem_places (mark : isMark c = true) (mem : c ∈ cs) : c ∈ (places cs).2 := by
  rw [places]
  cases group : digitGroup cs with
  | none => exact mem
  | some parts => exact mem_digitGroup mark group mem

theorem mem_tailOf {tail : Tail} (mark : isMark c = true) (read : tailOf cs = some (tail, after))
    (mem : c ∈ cs) : c ∈ after := by
  unfold tailOf at read
  split at read
  · rename_i rest
    obtain ⟨⟨ds, left⟩, group, same⟩ := Option.map_eq_some_iff.mp read
    obtain rfl : left = after := congrArg Prod.snd same
    exact mem_digitGroup mark group (mem_of_mem_cons mark mem (by decide))
  · rename_i rest
    obtain ⟨⟨e, left⟩, power, same⟩ := Option.map_eq_some_iff.mp read
    obtain rfl : left = after := congrArg Prod.snd same
    exact mem_exponent mark power (mem_places mark (mem_of_mem_cons mark mem (by decide)))
  · obtain ⟨⟨e, left⟩, power, same⟩ := Option.map_eq_some_iff.mp read
    obtain rfl : left = after := congrArg Prod.snd same
    exact mem_exponent mark power mem

theorem mem_leading {digits : List Nat} (mark : isMark c = true)
    (read : leading cs = some (digits, after)) (mem : c ∈ cs) : c ∈ after := by
  unfold leading at read
  split at read
  · rename_i group found
    obtain rfl := Option.some.inj read
    exact mem_digitGroup mark found mem
  · obtain ⟨_, -, same⟩ := Option.map_eq_some_iff.mp read
    obtain rfl := congrArg Prod.snd same
    exact mem
  · cases read

theorem mem_trimStart (mark : isMark c = true) (mem : c ∈ cs) : c ∈ trimStart cs := by
  rw [← List.takeWhile_append_dropWhile (p := isBlank) (l := cs)] at mem
  rcases List.mem_append.mp mem with blank | mem
  · have isBlank := List.mem_takeWhile_imp blank
    rw [isBlank_of_isMark mark] at isBlank
    cases isBlank
  · exact mem

/-- **No number contains a mark.** -/
theorem isMark_of_parse {s : String} {q : ℚ} (parsed : parse s = .ok q) :
    ∀ c ∈ s.toList, isMark c = false := by
  intro c mem
  by_contra mark
  replace mark : isMark c = true := by simpa using mark
  have inside : c ∈ s.toList.filter (· ≠ ' ') := by
    refine List.mem_filter.mpr ⟨mem, decide_eq_true ?_⟩
    rintro rfl
    cases mark
  unfold parse at parsed
  dsimp only at parsed
  split at parsed
  · cases parsed
  · split at parsed
    · cases parsed
    · rename_i n found
      simp only [Notation.ofChars?, Option.bind_eq_bind, Option.bind_eq_some_iff] at found
      obtain ⟨⟨digits, after⟩, lead, ⟨tail, rest⟩, tailRead, ends⟩ := found
      have left := mem_tailOf mark tailRead
        (mem_leading mark lead (mem_sign mark (mem_trimStart mark inside)))
      have none : trimStart rest = [] := by
        by_contra more
        rw [if_neg more] at ends
        cases ends
      have last := mem_trimStart mark left
      rw [none] at last
      exact absurd last List.not_mem_nil

end Rational

end ExactAlgebra
