import ExactAlgebra.Text.Split
import Mathlib.Data.List.Basic

/-!
# Texts cut at one character

If the separator is one character, the parts of a text are those that `List.splitOn` gives, so a text
that was joined is cut where it was joined. Where a blank was written behind each separator, it comes
first in the next part.

## Main statements

* `splitFrom_char` — a text is cut as a list;
* `splitFrom_separator`, `splitFrom_of_not_mem` — the first part of a text;
* `splitFrom_intercalate_blank` — parts that were joined by a separator and a blank;
* `mem_intercalate` — the characters of joined texts;
* `toList_replace_char` — a text in which one character was replaced.
-/

namespace ExactAlgebra.Text

variable {d : Char} {cs : List Char}

/-! ## Cutting -/

/-- The parts of a text are never none. -/
theorem splitFrom_ne_nil {sep cs part : List Char} {skip : Nat} : splitFrom sep skip part cs ≠ [] := by
  fun_induction splitFrom sep skip part cs with
  | case1 => exact List.cons_ne_nil _ _
  | case2 => assumption
  | case3 => exact List.cons_ne_nil _ _
  | case4 => assumption

theorem modifyHead_nil_append (parts : List (List Char)) :
    parts.modifyHead ([] ++ ·) = parts := by
  cases parts <;> rfl

/-- **A text is cut at a character** as a list is; what was read before belongs to the first part. -/
theorem splitFrom_char (d : Char) (part cs : List Char) :
    splitFrom [d] 0 part cs = (cs.splitOn d).modifyHead (part.reverse ++ ·) := by
  induction cs generalizing part with
  | nil => simp [splitFrom]
  | cons c rest ih =>
    rw [splitFrom, List.splitOn_eq_splitOnP, List.splitOnP_cons_eq_if_modifyHead,
      ← List.splitOn_eq_splitOnP]
    by_cases here : c = d
    · subst here
      rw [if_pos (by simp [List.isPrefixOf]), if_pos (beq_self_eq_true c), List.modifyHead_cons,
        List.append_nil]
      exact congrArg _ ((ih []).trans (modifyHead_nil_append _))
    · rw [if_neg (by simp [List.isPrefixOf, Ne.symm here]), if_neg (by simpa using here), ih,
        List.modifyHead_modifyHead, List.reverse_cons]
      congr 1
      funext first
      rw [List.append_assoc, Function.comp_apply, List.singleton_append]

theorem splitFrom_eq_splitOn (d : Char) (cs : List Char) :
    splitFrom [d] 0 [] cs = cs.splitOn d :=
  (splitFrom_char d [] cs).trans (modifyHead_nil_append _)

/-- A text is cut at its first separator. -/
theorem splitFrom_separator (none : d ∉ cs) (part rest : List Char) :
    splitFrom [d] 0 part (cs ++ d :: rest) = (part.reverse ++ cs) :: splitFrom [d] 0 [] rest := by
  rw [splitFrom_char, List.splitOn_append_cons_self_of_not_mem none, List.modifyHead_cons,
    splitFrom_eq_splitOn]

/-- A text without separators is one part. -/
theorem splitFrom_of_not_mem (none : d ∉ cs) (part : List Char) :
    splitFrom [d] 0 part cs = [part.reverse ++ cs] := by
  rw [splitFrom_char, List.splitOn_eq_singleton none, List.modifyHead_cons]

/-! ## Joined texts -/

/-- Joined texts are the first one, and each of the others behind a separator. -/
theorem intercalate_cons (sep first : List Char) (others : List (List Char)) :
    sep.intercalate (first :: others) = first ++ others.flatMap (sep ++ ·) := by
  induction others generalizing first with
  | nil => rw [List.intercalate_singleton, List.flatMap_nil, List.append_nil]
  | cons next others ih =>
    rw [List.intercalate_cons_cons, ih, List.flatMap_cons, List.append_assoc, List.append_assoc]

/-- **A character of joined texts** is in the separator or in one of the texts. -/
theorem mem_intercalate {sep : List Char} {texts : List (List Char)} {c : Char}
    (mem : c ∈ sep.intercalate texts) : c ∈ sep ∨ ∃ text ∈ texts, c ∈ text := by
  cases texts with
  | nil => exact absurd mem List.not_mem_nil
  | cons first others =>
    rw [intercalate_cons, List.mem_append, List.mem_flatMap] at mem
    rcases mem with mem | ⟨text, here, mem⟩
    · exact .inr ⟨first, List.mem_cons_self, mem⟩
    · exact (List.mem_append.mp mem).imp_right fun mem => ⟨text, List.mem_cons_of_mem _ here, mem⟩

/-- **Texts that were joined by a separator and a blank** are cut apart again. The blanks are at the
start of each part but the first. -/
theorem splitFrom_intercalate_blank {first : List Char} {others : List (List Char)} (blank : d ≠ ' ')
    (none : ∀ text ∈ first :: others, d ∉ text) :
    splitFrom [d] 0 [] ([d, ' '].intercalate (first :: others)) =
      first :: others.map (' ' :: ·) := by
  have joined : [d, ' '].intercalate (first :: others) =
      [d].intercalate (first :: others.map (' ' :: ·)) := by
    rw [intercalate_cons, intercalate_cons, List.flatMap_map]
    rfl
  obtain ⟨here, there⟩ := List.forall_mem_cons.mp none
  rw [splitFrom_eq_splitOn, joined, List.splitOn_intercalate d ?_ (List.cons_ne_nil _ _)]
  refine List.forall_mem_cons.mpr ⟨here, List.forall_mem_map.mpr fun text mem => ?_⟩
  rw [List.mem_cons, not_or]
  exact ⟨blank, there text mem⟩

/-! ## Replacing -/

/-- What is written for a separator stands between the parts. -/
theorem intercalate_splitFrom (sep new part cs : List Char) (skip : Nat) (first : List Char) :
    new.intercalate (first :: splitFrom sep skip part cs) =
      first ++ new ++ new.intercalate (splitFrom sep skip part cs) := by
  have nonempty : splitFrom sep skip part cs ≠ [] := splitFrom_ne_nil
  obtain ⟨next, others, parts⟩ := List.exists_cons_of_ne_nil nonempty
  rw [parts, List.intercalate_cons_cons]

/-- **A character is replaced** wherever it stands. -/
theorem intercalate_splitFrom_char (d : Char) (new part cs : List Char) :
    new.intercalate (splitFrom [d] 0 part cs) =
      part.reverse ++ cs.flatMap fun c => if c = d then new else [c] := by
  induction cs generalizing part with
  | nil => simp [splitFrom]
  | cons c cs ih =>
    rw [splitFrom, List.flatMap_cons]
    by_cases here : c = d
    · subst here
      rw [if_pos (by simp [List.isPrefixOf]), if_pos rfl, intercalate_splitFrom, List.length_singleton,
        Nat.sub_self, ih, List.reverse_nil, List.nil_append, List.append_assoc]
    · rw [if_neg (by simp [List.isPrefixOf, Ne.symm here]), if_neg here, ih, List.reverse_cons,
        List.append_assoc]

theorem toList_replace (old new text : String) : (replace old new text).toList =
    new.toList.intercalate (splitFrom old.toList 0 [] text.toList) := by
  have back : List.map (String.toList ∘ String.ofList) (splitFrom old.toList 0 [] text.toList) =
      splitFrom old.toList 0 [] text.toList := by
    simp [Function.comp_def]
  rw [replace, String.toList_intercalate, splitOn, List.map_map, back]

theorem toList_replace_char {old : String} (single : old.toList = [d]) (new text : String) :
    (replace old new text).toList =
      text.toList.flatMap fun c => if c = d then new.toList else [c] := by
  rw [toList_replace, single, intercalate_splitFrom_char, List.reverse_nil, List.nil_append]

end ExactAlgebra.Text
