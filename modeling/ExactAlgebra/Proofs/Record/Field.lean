import ExactAlgebra.Record.Field

/-!
# Fields read back

Joining fields escapes every character that means something in a record, so splitting the record
finds each field where it was written. What is written holds no line ends, and a record is therefore
one line.

## Main statements

* `splitFields_joinFields` — the fields of a record that was joined from them;
* `ne_lineEnd_of_mem_joinFields` — a record has no line ends.
-/

namespace ExactAlgebra.Record

/-! ## Characters -/

/-- The characters that are escaped. -/
def isEscaped (c : Char) : Bool :=
  c = '\\' || c = '|' || c = '\n' || c = '\r'

theorem escapedChar_plain {c : Char} (plain : isEscaped c = false) : escapedChar c = [c] := by
  simp only [isEscaped, Bool.or_eq_false_iff, decide_eq_false_iff_not] at plain
  obtain ⟨⟨⟨backslash, bar⟩, feed⟩, carriage⟩ := plain
  rw [escapedChar]
  · exact backslash
  · exact bar
  · exact feed
  · exact carriage

theorem splitChars_plain {c : Char} (plain : isEscaped c = false) (field rest : List Char) :
    splitChars field (c :: rest) = splitChars (c :: field) rest := by
  simp only [isEscaped, Bool.or_eq_false_iff, decide_eq_false_iff_not] at plain
  obtain ⟨⟨⟨backslash, bar⟩, -⟩, -⟩ := plain
  rw [splitChars, if_neg bar]
  · exact fun same _ => backslash same
  · exact fun _ _ same _ => backslash same

/-- **An escaped character is read as the character.** -/
theorem splitChars_escapedChar (c : Char) (field rest : List Char) :
    splitChars field (escapedChar c ++ rest) = splitChars (c :: field) rest := by
  cases special : isEscaped c with
  | false => rw [escapedChar_plain special, List.singleton_append, splitChars_plain special]
  | true =>
    simp only [isEscaped, Bool.or_eq_true, decide_eq_true_eq] at special
    rcases special with ((rfl | rfl) | rfl) | rfl <;> rfl

/-! ## Fields -/

/-- **An escaped field is read as the field**, behind what has been read of it already. -/
theorem splitChars_escaped (cs field rest : List Char) :
    splitChars field (escaped cs ++ rest) = splitChars (cs.reverse ++ field) rest := by
  induction cs generalizing field with
  | nil => rfl
  | cons c cs ih =>
    rw [escaped, List.flatMap_cons, List.append_assoc, splitChars_escapedChar]
    exact (ih (c :: field)).trans (by simp)

/-- Joined fields are read one after the other. -/
theorem splitChars_joinChars (field : List Char) (fields : List (List Char)) :
    splitChars [] (joinChars (field :: fields)) = .ok (field :: fields) := by
  induction fields generalizing field with
  | nil =>
    have read := splitChars_escaped field [] []
    rw [List.append_nil, List.append_nil] at read
    rw [joinChars, read, splitChars, List.reverse_reverse]
  | cons next fields ih =>
    rw [joinChars, splitChars_escaped, List.append_nil, splitChars, if_pos rfl, ih,
      List.reverse_reverse]
    · rfl
    · simp
    · simp
    · simp

/-- **The fields of a record** are those that it was joined from. -/
theorem splitFields_joinFields {fields : List String} (nonempty : fields ≠ []) :
    splitFields (joinFields fields) = .ok fields := by
  match fields, nonempty with
  | field :: fields, _ =>
    rw [splitFields, joinFields, String.toList_ofList, List.map_cons, splitChars_joinChars]
    simp [Except.map, Function.comp_def]

/-! ## Lines -/

theorem ne_lineEnd_of_mem_escaped {cs : List Char} {c : Char} (mem : c ∈ escaped cs) :
    c ≠ '\n' ∧ c ≠ '\r' := by
  obtain ⟨d, -, inside⟩ := List.mem_flatMap.mp mem
  cases special : isEscaped d with
  | false =>
    rw [escapedChar_plain special, List.mem_singleton] at inside
    subst inside
    simp only [isEscaped, Bool.or_eq_false_iff, decide_eq_false_iff_not] at special
    exact ⟨special.1.2, special.2⟩
  | true =>
    simp only [isEscaped, Bool.or_eq_true, decide_eq_true_eq] at special
    rcases special with ((rfl | rfl) | rfl) | rfl <;>
      simp only [escapedChar, List.mem_cons, List.not_mem_nil, or_false] at inside <;>
      rcases inside with rfl | rfl <;> decide

/-- **A record is one line.** -/
theorem ne_lineEnd_of_mem_joinFields {fields : List String} {c : Char}
    (mem : c ∈ (joinFields fields).toList) : c ≠ '\n' ∧ c ≠ '\r' := by
  rw [joinFields, String.toList_ofList] at mem
  generalize fields.map String.toList = written at mem
  induction written with
  | nil => cases mem
  | cons field rest ih =>
    match rest, ih, mem with
    | [], _, mem => exact ne_lineEnd_of_mem_escaped mem
    | next :: rest, ih, mem =>
      rw [joinChars, List.mem_append, List.mem_cons] at mem
      · rcases mem with mem | rfl | mem
        · exact ne_lineEnd_of_mem_escaped mem
        · decide
        · exact ih mem
      · simp

end ExactAlgebra.Record
