import ExactAlgebra.Proofs.Record.Codec
import ExactAlgebra.Proofs.Text.Split
import ExactAlgebra.Record.Result
import ExactAlgebra.Record.System

/-!
# Records that are refused

Whatever a text is, a reader of records refuses it for one kind of reason only: the text is
malformed. The reason can be an escape, a size, the number of fields, a tag, or a number; where the
ranks and types of a solution cannot be read, the reason for that is in the text of the answer only.

## Main statements

* `Rational.kind_of_parse`, `Mat.kind_of_ofFields` — the parts of records;
* `Result.fieldsOf_ne_nil` — a record has a field in either layout;
* `Mat.kind_of_decode`, `Result.kind_of_decode`, `SystemSolution.kind_of_decode` — records.
-/

namespace ExactAlgebra

open Text

/-- **A text that is no number** is malformed. -/
theorem Rational.kind_of_parse {text : String} {e : Error} (refused : parse text = .error e) :
    e.kind = .invalidArgument := by
  simp only [parse] at refused
  -- no characters, no number, a zero below the line, or a number
  split at refused
  · cases refused
    rfl
  split at refused
  · cases refused
    rfl
  split at refused
  · cases refused
    rfl
  · cases refused

theorem Rational.kind_of_mapM_parse {texts : List String} {e : Error}
    (refused : texts.mapM parse = .error e) : e.kind = .invalidArgument := by
  obtain ⟨text, -, failed⟩ := error_of_mapM refused
  exact kind_of_parse failed

namespace Mat

theorem kind_of_ofSized {rows cols : Int} {entries : List String} {e : Error}
    (refused : ofSized rows cols entries = .error e) : e.kind = .invalidArgument := by
  unfold ofSized at refused
  split at refused
  · cases refused
    rfl
  · exact Rational.kind_of_mapM_parse (error_of_map refused)

/-- **Fields that are none of a matrix** are malformed. -/
theorem kind_of_ofFields {fields : List String} {e : Error} (refused : ofFields fields = .error e) :
    e.kind = .invalidArgument := by
  unfold ofFields at refused
  split at refused
  · split at refused
    · exact kind_of_ofSized refused
    · cases refused
      rfl
  · cases refused
    rfl

/-- **A text that is no record of a matrix** is malformed. -/
theorem kind_of_decode {record : String} {e : Error} (refused : decode record = .error e) :
    e.kind = .invalidArgument := by
  obtain split | ⟨fields, -, refused⟩ := error_of_bind refused
  · exact Record.kind_of_splitFields split
  · exact kind_of_ofFields refused

end Mat

namespace Result

theorem kind_of_ofFields {tag : String} {fields : List String} {e : Error}
    (refused : ofFields tag fields = .error e) : e.kind = .invalidArgument := by
  unfold ofFields at refused
  -- a number, a vector, a matrix, a text, or no tag of these
  split at refused
  · exact Rational.kind_of_parse (error_of_map refused)
  · exact Rational.kind_of_mapM_parse (error_of_map refused)
  · exact Mat.kind_of_ofFields (error_of_map refused)
  · cases refused
  · cases refused
    rfl

theorem kind_of_fieldsOf {record : String} {e : Error} (refused : fieldsOf record = .error e) :
    e.kind = .invalidArgument := by
  unfold fieldsOf at refused
  split at refused
  · cases refused
  · exact Record.kind_of_splitFields refused

/-- **There is a field in every record**: its tag, however it is separated from what follows. -/
theorem fieldsOf_ne_nil {record : String} {fields : List String}
    (read : fieldsOf record = .ok fields) : fields ≠ [] := by
  unfold fieldsOf at read
  split at read
  · obtain rfl := Except.ok.inj read
    intro empty
    have none : splitOn oldSeparator record = [] := List.map_eq_nil_iff.mp empty
    exact splitFrom_ne_nil (List.map_eq_nil_iff.mp none)
  · exact Record.splitFields_ne_nil read

/-- **A text that is no record of a result** is malformed, in either layout. -/
theorem kind_of_decode {record : String} {e : Error} (refused : decode record = .error e) :
    e.kind = .invalidArgument := by
  obtain split | ⟨fields, -, refused⟩ := error_of_bind refused
  · exact kind_of_fieldsOf split
  · cases fields with
    | nil =>
      cases refused
      rfl
    | cons tag rest => exact kind_of_ofFields refused

end Result

/-- **A text that is no record of a solution** is malformed. -/
theorem SystemSolution.kind_of_decode {record : String} {e : Error}
    (refused : decode record = .error e) : e.kind = .invalidArgument := by
  obtain splitting | ⟨fields, -, refused⟩ := error_of_bind refused
  · exact Record.kind_of_splitFields splitting
  split at refused
  · dsimp only at refused
    split at refused
    · obtain rfl := Except.error.inj refused
      rfl
    split at refused
    · obtain rfl := Except.error.inj refused
      rfl
    -- what is left are the three matrices
    obtain particular | ⟨_, -, refused⟩ := error_of_bind refused
    · exact Mat.kind_of_decode particular
    obtain homogeneous | ⟨_, -, refused⟩ := error_of_bind refused
    · exact Mat.kind_of_decode homogeneous
    obtain augmented | ⟨_, -, refused⟩ := error_of_bind refused
    · exact Mat.kind_of_decode augmented
    · cases refused
  · obtain rfl := Except.error.inj refused
    rfl

end ExactAlgebra
