import ExactAlgebra.Proofs.Error.Run
import ExactAlgebra.Proofs.Record.Field

/-!
# Splitting and joining undo each other

Splitting a record gives the fields that it was joined from. The other way round, a text without
line ends is the record of the fields that it splits into; what does not split has an escape that is
none. So lists of fields and their records belong to each other one to one, and records inside of
records are found again at any depth.

## Main statements

* `splitFields_ne_nil` — a record has a field;
* `joinFields_of_splitFields` — what was split is joined again;
* `follow?_write` — parts of nested records;
* `fields_and_records` — both directions, and nested records.

## Main definitions

* `Nested` — fields that may be records themselves, and `Nested.part?` — the parts of them;
* `follow?` — the part of a text behind the numbers of some fields.
-/

namespace ExactAlgebra.Record

/-! ## Characters -/

/-- **An escape stands for one character**, and this character is escaped by it. -/
theorem escapedChar_of_unescapedChar? {letter meant : Char}
    (stands : unescapedChar? letter = some meant) : escapedChar meant = ['\\', letter] := by
  unfold unescapedChar? at stands
  -- one case for each letter that can follow a backslash
  split at stands
  all_goals cases stands
  all_goals rfl

/-- What has been read of a field, with one more character. -/
theorem escaped_reverse_cons (c : Char) (field : List Char) :
    escaped (c :: field).reverse = escaped field.reverse ++ escapedChar c := by
  simp [escaped]

/-- A record with one more field in front. -/
theorem joinChars_cons {field : List Char} {rest : List (List Char)} (more : rest ≠ []) :
    joinChars (field :: rest) = escaped field ++ '|' :: joinChars rest := by
  cases rest with
  | nil => exact absurd rfl more
  | cons next rest => rfl

/-! ## From a text to its fields and back -/

/-- There is a field from any place on, also at the end. -/
theorem splitChars_ne_nil {field cs : List Char} {fields : List (List Char)}
    (split : splitChars field cs = .ok fields) : fields ≠ [] := by
  fun_induction splitChars field cs generalizing fields with
  | case1 =>
    obtain rfl := Except.ok.inj split
    exact List.cons_ne_nil _ _
  | case2 => cases split
  | case3 field letter rest meant stands ih => exact ih split
  | case4 => cases split
  | case5 field rest _ _ ih =>
    obtain ⟨more, -, rfl⟩ := ok_of_map split
    exact List.cons_ne_nil _ _
  | case6 field c rest _ _ _ ih => exact ih split

/-- **What was split is joined again**: the fields from a place on make up the text from there on,
behind what had been read of the first of them. -/
theorem joinChars_of_splitChars {field cs : List Char} {fields : List (List Char)}
    (oneLine : ∀ c ∈ cs, c ≠ '\n' ∧ c ≠ '\r') (split : splitChars field cs = .ok fields) :
    joinChars fields = escaped field.reverse ++ cs := by
  -- along the reader, for any beginning of the field that is being read
  fun_induction splitChars field cs generalizing fields with
  | case1 field =>
    obtain rfl := Except.ok.inj split
    exact (List.append_nil _).symm
  | case2 => cases split
  | case3 field letter rest meant stands ih =>
    have later := (List.forall_mem_cons.mp (List.forall_mem_cons.mp oneLine).2).2
    rw [ih later split, escaped_reverse_cons, escapedChar_of_unescapedChar? stands,
      List.append_assoc]
    rfl
  | case4 => cases split
  | case5 field rest _ _ ih =>
    obtain ⟨more, read, rfl⟩ := ok_of_map split
    rw [joinChars_cons (splitChars_ne_nil read), ih (List.forall_mem_cons.mp oneLine).2 read]
    rfl
  | case6 field c rest noLast noEscape noBar ih =>
    obtain ⟨⟨noFeed, noReturn⟩, later⟩ := List.forall_mem_cons.mp oneLine
    -- a backslash would have been read before, alone or with what follows it
    have noBackslash : c ≠ '\\' := by
      intro backslash
      cases rest with
      | nil => exact noLast backslash rfl
      | cons letter rest => exact noEscape letter rest backslash rfl
    have plain : isEscaped c = false := by
      simp [isEscaped, noBackslash, noBar, noFeed, noReturn]
    rw [ih later split, escaped_reverse_cons, escapedChar_plain plain, List.append_assoc]
    rfl

/-- **There is a field in every record**, also in an empty one. -/
theorem splitFields_ne_nil {text : String} {fields : List String}
    (split : splitFields text = .ok fields) : fields ≠ [] := by
  obtain ⟨read, chars, rfl⟩ := ok_of_map split
  intro empty
  exact splitChars_ne_nil chars (List.map_eq_nil_iff.mp empty)

/-- **A text that splits** is the record of its fields. -/
theorem joinFields_of_splitFields {text : String} {fields : List String}
    (oneLine : ∀ c ∈ text.toList, c ≠ '\n' ∧ c ≠ '\r') (split : splitFields text = .ok fields) :
    joinFields fields = text := by
  obtain ⟨read, chars, rfl⟩ := ok_of_map split
  have same : (read.map String.ofList).map String.toList = read := by
    simp [Function.comp_def]
  rw [joinFields, same, joinChars_of_splitChars oneLine chars]
  exact String.ofList_toList (s := text)

/-- Only an escape that is none stops the reader. -/
theorem kind_of_splitChars {field cs : List Char} {e : Error}
    (split : splitChars field cs = .error e) : e.kind = .invalidArgument := by
  fun_induction splitChars field cs generalizing e with
  | case1 => cases split
  | case2 =>
    obtain rfl := Except.error.inj split
    rfl
  | case3 field letter rest meant stands ih => exact ih split
  | case4 =>
    obtain rfl := Except.error.inj split
    rfl
  | case5 field rest _ _ ih => exact ih (error_of_map split)
  | case6 field c rest _ _ _ ih => exact ih split

/-- **A text that does not split** has an escape that is none. -/
theorem kind_of_splitFields {text : String} {e : Error} (split : splitFields text = .error e) :
    e.kind = .invalidArgument :=
  kind_of_splitChars (error_of_map split)

/-! ## Nested records -/

/-- **A field that may be a record itself**, with at least one field in it. -/
inductive Nested where
  | text (value : String)
  | record (first : Nested) (rest : List Nested)

namespace Nested

/-- The fields of a record; a text has none. -/
def fields : Nested → List Nested
  | text _ => []
  | record first rest => first :: rest

/-- **What is written for it**: a record is joined from what is written for its fields. -/
def write : Nested → String
  | text value => value
  | record first rest => joinFields (first.write :: rest.map write)

/-- **The part behind the numbers of some fields**, from the outside to the inside. -/
def part? : List ℕ → Nested → Option Nested
  | [], whole => some whole
  | i :: path, whole => whole.fields[i]?.bind (part? path)

end Nested

/-- **The part of a text behind the numbers of some fields**: the text is split, and the search goes
on in the field with the first number. -/
def follow? : List ℕ → String → Option String
  | [], text => some text
  | i :: path, text =>
    match splitFields text with
    | .ok fields => fields[i]?.bind (follow? path)
    | .error _ => none

/-- **Every part of a nested record is found** where it is, as it was written. -/
theorem follow?_write {whole part : Nested} {path : List ℕ} (found : whole.part? path = some part) :
    follow? path whole.write = some part.write := by
  induction path generalizing whole with
  | nil =>
    obtain rfl := Option.some.inj found
    rfl
  | cons i path ih =>
    obtain ⟨field, here, inside⟩ := Option.bind_eq_some_iff.mp found
    cases whole with
    | text value => cases here
    | record first rest =>
      have split : splitFields (Nested.record first rest).write =
          .ok ((first :: rest).map Nested.write) := by
        rw [Nested.write]
        exact splitFields_joinFields (List.cons_ne_nil _ _)
      have there : ((first :: rest).map Nested.write)[i]? = some field.write := by
        rw [List.getElem?_map]
        exact congrArg (Option.map Nested.write) here
      rw [follow?, split]
      show (((first :: rest).map Nested.write)[i]?).bind (follow? path) = some part.write
      rw [there]
      exact ih inside

/-! ## Both directions -/

/-- **Fields and records belong to each other one to one.** Splitting the record of some fields gives
these fields, whatever they are, and the record is one line. A text without line ends splits into
fields whose record it is, or it is refused as malformed. Records inside of records are found at any
depth. -/
theorem fields_and_records :
    (∀ first rest, splitFields (joinFields (first :: rest)) = .ok (first :: rest)) ∧
    (∀ fields, '\n' ∉ (joinFields fields).toList ∧ '\r' ∉ (joinFields fields).toList) ∧
    (∀ text : String, '\n' ∉ text.toList → '\r' ∉ text.toList →
      (∃ e, splitFields text = .error e ∧ e.kind = .invalidArgument) ∨
        ∃ fields, splitFields text = .ok fields ∧ fields ≠ [] ∧ joinFields fields = text) ∧
    ∀ (whole part : Nested) path, whole.part? path = some part →
      follow? path whole.write = some part.write := by
  refine ⟨?_, ?_, ?_, ?_⟩
  · intro first rest
    exact splitFields_joinFields (List.cons_ne_nil _ _)
  · intro fields
    constructor
    · intro mem
      exact (ne_lineEnd_of_mem_joinFields mem).1 rfl
    · intro mem
      exact (ne_lineEnd_of_mem_joinFields mem).2 rfl
  · intro text noFeed noReturn
    have oneLine : ∀ c ∈ text.toList, c ≠ '\n' ∧ c ≠ '\r' := by
      intro c mem
      exact ⟨fun feed => noFeed (feed ▸ mem), fun carriage => noReturn (carriage ▸ mem)⟩
    cases split : splitFields text with
    | error e => exact .inl ⟨e, rfl, kind_of_splitFields split⟩
    | ok fields =>
      exact .inr ⟨fields, rfl, splitFields_ne_nil split, joinFields_of_splitFields oneLine split⟩
  · intro whole part path found
    exact follow?_write found

end ExactAlgebra.Record
