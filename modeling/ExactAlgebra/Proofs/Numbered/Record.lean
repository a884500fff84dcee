import ExactAlgebra.Numbered.Record
import ExactAlgebra.Proofs.Numbered.Loop
import ExactAlgebra.Proofs.Record.Refused
import ExactAlgebra.Proofs.Record.Result

/-!
# Readers of records ask for what is there

A reader that asks for the fields of a record by their numbers, and writes the entries of a matrix
one by one, ends as the reader does that takes the fields apart: the lengths that are checked first
are those that the numbers need. So a text that is no record is refused as malformed, whatever is
wrong with it, and never for a field or an entry that is not there.

## Main statements

* `Numbered.foldlM_writeField` — the entries of a matrix, one by one;
* `Numbered.decodeMatrix_eq`, `Numbered.decodeResult_eq`, `Numbered.decodeSolution_eq` — the
  readers;
* `Numbered.decoding_is_safe` — what comes of any text.

## Main definitions

* `Numbered.IsSafe` — a reader that refuses malformed texts only, and reads again what is written.
-/

namespace ExactAlgebra

open Text

variable {m n : ℕ}

/-! ## Entries one by one -/

namespace Grid

/-- **A grid with other entries from a number on**, row by row. -/
def fillFrom (g : Grid m n) (first : ℕ) (values : List ℚ) : Grid m n :=
  ofEntries fun i j =>
    if i.val * n + j.val < first then g.entry i j
    else values.getD (i.val * n + j.val - first) (g.entry i j)

theorem fillFrom_nil (g : Grid m n) (first : ℕ) : g.fillFrom first [] = g := by
  apply ext_entries
  intro i j
  rw [fillFrom, entry_ofEntries]
  split <;> rfl

/-- **The number of an entry** tells its row and its column. -/
theorem number_eq_iff {i k : Fin m} {j l : Fin n} :
    i.val * n + j.val = k.val * n + l.val ↔ (i, j) = (k, l) := by
  constructor
  · intro same
    have column : j.val = l.val := by
      have rest := congrArg (· % n) same
      simpa [Nat.mul_add_mod', Nat.mod_eq_of_lt j.isLt, Nat.mod_eq_of_lt l.isLt] using rest
    have row : i.val = k.val := by
      have multiples : i.val * n = k.val * n := by omega
      exact Nat.eq_of_mul_eq_mul_right (by omega) multiples
    rw [Fin.ext row, Fin.ext column]
  · intro same
    obtain ⟨rfl, rfl⟩ := Prod.mk.inj same
    rfl

/-- **The first entry is written**, and the others follow. -/
theorem fillFrom_cons (g : Grid m n) (i : Fin m) (j : Fin n) (q : ℚ) (values : List ℚ) :
    g.fillFrom (i.val * n + j.val) (q :: values) =
      (g.setEntry i j q).fillFrom (i.val * n + j.val + 1) values := by
  apply ext_entries
  intro k l
  rw [fillFrom, fillFrom, entry_ofEntries, entry_ofEntries, entry_setEntry]
  obtain before | here | behind := Nat.lt_trichotomy (k.val * n + l.val) (i.val * n + j.val)
  · have apart : (i, j) ≠ (k, l) := by
      intro same
      have := number_eq_iff.mpr same
      omega
    rw [if_pos before, if_pos (by omega), if_neg apart]
  · have same : (i, j) = (k, l) := number_eq_iff.mp here.symm
    rw [if_neg (by omega), if_pos (by omega), if_pos same, here, Nat.sub_self]
    rfl
  · have apart : (i, j) ≠ (k, l) := by
      intro same
      have := number_eq_iff.mpr same
      omega
    have next : k.val * n + l.val - (i.val * n + j.val) =
        k.val * n + l.val - (i.val * n + j.val + 1) + 1 := by omega
    rw [if_neg (by omega), if_neg (by omega), if_neg apart, next]
    rfl

end Grid

namespace Numbered

/-- The row and the column of an entry that is there. -/
theorem exists_place {number : ℕ} (inside : number < m * n) :
    ∃ (i : Fin m) (j : Fin n), i.val * n + j.val = number ∧
      placeOf number n = .ok ((i.val : Int), (j.val : Int)) := by
  have columns : 0 < n := by
    apply Nat.pos_of_ne_zero
    rintro rfl
    omega
  have row : number / n < m := Nat.div_lt_of_lt_mul (by rwa [Nat.mul_comm])
  refine ⟨⟨number / n, row⟩, ⟨number % n, Nat.mod_lt _ columns⟩, Nat.div_add_mod' number n, ?_⟩
  have nonzero : (n : Int) ≠ 0 := by omega
  rw [placeOf, if_neg nonzero, Int.ofNat_fdiv, Int.ofNat_fmod]

/-- **The entries of a matrix are written one by one**, and the first text that is no number is
refused. -/
theorem foldlM_writeField {entries : List String} {first : ℕ} (g : Grid m n)
    (room : first + entries.length ≤ m * n) :
    (entries.zipIdx first).foldlM (writeField n) ⟨m, n, g⟩ =
      (entries.mapM Rational.parse).map fun values => ⟨m, n, g.fillFrom first values⟩ := by
  induction entries generalizing first g with
  | nil =>
    rw [List.mapM_nil, pure_eq_ok, Except.map, Grid.fillFrom_nil]
    rfl
  | cons entry rest ih =>
    rw [List.length_cons] at room
    obtain ⟨i, j, number, place⟩ := exists_place (show first < m * n by omega)
    have written : writeField n ⟨m, n, g⟩ (entry, first) =
        (Rational.parse entry).map fun q => ⟨m, n, g.setEntry i j q⟩ := by
      rw [writeField, place, bind_ok]
      show Mat.set ⟨m, n, g⟩ (i.val : Int) (j.val : Int) (.text entry) = _
      rw [Mat.set, Mat.rowIndex_val, bind_ok, Mat.columnIndex_val, bind_ok, Cell.value]
      cases Rational.parse entry <;> rfl
    rw [List.zipIdx_cons, List.foldlM_cons, written, List.mapM_cons]
    cases Rational.parse entry with
    | error e => rfl
    | ok q =>
      show (rest.zipIdx (first + 1)).foldlM (writeField n) ⟨m, n, g.setEntry i j q⟩ = _
      rw [ih _ (by omega), bind_ok]
      cases rest.mapM Rational.parse with
      | error e => rfl
      | ok values =>
        subst number
        rw [bind_ok, pure_eq_ok, Except.map, Except.map, Grid.fillFrom_cons]

/-- The matrix of zeros, with all of its entries written. -/
theorem fillFrom_zero (values : List ℚ) :
    (⟨m, n, (Grid.zero m n).fillFrom 0 values⟩ : Mat) = Mat.ofEntryList m n values := by
  rw [Mat.ofEntryList]
  congr 1
  apply Grid.ext_entries
  intro i j
  rw [Grid.fillFrom, Grid.entry_ofEntries, Grid.entry_ofEntries, if_neg (Nat.not_lt_zero _),
    Grid.entry_zero, Nat.sub_zero]

/-! ## Matrices -/

/-- **The sizes of a matrix** are the first two fields, if they are there and are whole numbers. -/
theorem matrixSize_eq (fields : List String) :
    matrixSize fields = match fields with
      | rows :: cols :: _ =>
        match readInt? rows, readInt? cols with
        | some rows, some cols => .ok (rows, cols)
        | _, _ => .error .missingDimensions
      | _ => .error .missingDimensions := by
  unfold matrixSize
  match fields with
  | [] => rfl
  | [rows] =>
    show guarded _ _ (readInt rows >>= _) = _
    rw [readInt]
    cases readInt? rows <;> rfl
  | rows :: cols :: entries =>
    show guarded _ _ (readInt rows >>= fun rows => readInt cols >>= _) = _
    dsimp only
    rw [readInt, readInt]
    cases readInt? rows <;> cases readInt? cols <;> rfl

/-- The matrix of two sizes and of texts for its entries. -/
theorem written_eq (rows cols : Int) (entries : List String) :
    (if rows < 0 ∨ cols < 0 ∨ (entries.length : Int) ≠ rows * cols then
      .error (.entryCount rows cols entries.length)
    else zeros rows cols >>= entries.zipIdx.foldlM (writeField cols)) =
      Mat.ofSized rows cols entries := by
  rw [Mat.ofSized]
  by_cases misfit : rows < 0 ∨ cols < 0 ∨ (entries.length : Int) ≠ rows * cols
  · rw [if_pos misfit, if_pos misfit]
  rw [if_neg misfit, if_neg misfit]
  push Not at misfit
  obtain ⟨rowsNatural, colsNatural, fits⟩ := misfit
  lift rows to ℕ using rowsNatural
  lift cols to ℕ using colsNatural
  have natural : ¬ ((rows : Int) < 0 ∨ (cols : Int) < 0) := by omega
  have room : 0 + entries.length ≤ rows * cols := by
    rw [Nat.zero_add]
    exact_mod_cast fits.le
  rw [zeros, if_neg natural, bind_ok]
  show entries.zipIdx.foldlM (writeField cols) ⟨rows, cols, Grid.zero rows cols⟩ = _
  rw [foldlM_writeField _ room]
  simp only [fillFrom_zero]
  rfl

/-- **The matrix of some fields.** -/
theorem matrixOfFields_eq (fields : List String) : matrixOfFields fields = Mat.ofFields fields := by
  rw [matrixOfFields, matrixSize_eq]
  match fields with
  | [] => rfl
  | [rows] => rfl
  | rows :: cols :: entries =>
    rw [Mat.ofFields]
    dsimp only
    cases readInt? rows with
    | none => rfl
    | some rows =>
      cases readInt? cols with
      | none => rfl
      | some cols =>
        show _ = Mat.ofSized rows cols entries
        rw [← written_eq]
        rfl

/-- **The matrix of a record.** -/
theorem decodeMatrix_eq (record : String) : decodeMatrix record = Mat.decode record := by
  rw [decodeMatrix, Mat.decode]
  simp only [matrixOfFields_eq]

/-! ## Results -/

/-- The head of a record that is as long as it should be. -/
theorem isHeaded_eq (length : ℕ) (head : String) (fields : List String) :
    isHeaded (length + 1) head fields =
      .ok (fields.length = length + 1 && fields.head? = some head) := by
  cases fields with
  | nil => rfl
  | cons first rest =>
    rw [isHeaded]
    by_cases long : (first :: rest).length = length + 1
    · rw [if_pos long, decide_eq_true long, Bool.true_and]
      show Except.ok (decide (first = head)) = _
      simp
    · rw [if_neg long, decide_eq_false long, Bool.false_and]

/-- **The result of a tag and the fields behind it.** -/
theorem resultOfFields_eq (tag : String) (fields : List String) :
    resultOfFields tag fields = Result.ofFields tag fields := by
  unfold Result.ofFields
  -- a number, a vector, a matrix, a text, or no tag of these
  split
  · rename_i q
    show Rational.parse q >>= _ = _
    cases Rational.parse q <;> rfl
  · show fields.mapM Rational.parse >>= _ = _
    cases fields.mapM Rational.parse <;> rfl
  · show matrixOfFields fields >>= _ = _
    rw [matrixOfFields_eq]
    cases Mat.ofFields fields <;> rfl
  · rfl
  · rename_i noVector noMatrix noNumber noText
    have number : ¬ (tag = "SCALAR" ∧ fields.length = 1) := by
      rintro ⟨rfl, single⟩
      obtain ⟨q, rfl⟩ := List.length_eq_one_iff.mp single
      exact noNumber q rfl rfl
    have text : ¬ (tag = "STRING" ∧ fields.length = 1) := by
      rintro ⟨rfl, single⟩
      obtain ⟨s, rfl⟩ := List.length_eq_one_iff.mp single
      exact noText s rfl rfl
    rw [resultOfFields, if_neg number, if_neg noVector, if_neg noMatrix, if_neg text]
    rfl

/-- **The result of a record.** -/
theorem decodeResult_eq (record : String) : decodeResult record = Result.decode record := by
  rw [decodeResult, Result.decode]
  cases read : Result.fieldsOf record with
  | error e => rfl
  | ok fields =>
    rw [bind_ok, bind_ok, isHeaded_eq 0, bind_ok]
    cases fields with
    | nil => exact absurd rfl (Result.fieldsOf_ne_nil read)
    | cons tag values =>
      cases values with
      | nil =>
        by_cases vector : tag = "VECTOR"
        · subst vector
          rfl
        · rw [if_neg (by simp [vector])]
          exact resultOfFields_eq tag []
      | cons first rest => exact resultOfFields_eq tag (first :: rest)

/-! ## Solutions of systems -/

/-- A guard that catches every cause of its step. -/
theorem guarded_eq {α : Type} {caught : Error → Bool} {answer : Error → Error}
    {step : Except Error α} (all : ∀ e, step = .error e → caught e = true) :
    guarded caught answer step = step.mapError answer := by
  cases step with
  | ok a => rfl
  | error e =>
    show Except.error (if caught e then answer e else e) = .error (answer e)
    rw [if_pos (all e rfl)]

theorem isBadValue_of_readInt {text : String} {e : Error} (refused : readInt text = .error e) :
    e.isBadValue = true := by
  unfold readInt at refused
  split at refused
  · cases refused
  · obtain rfl := Except.error.inj refused
    rfl

theorem isBadValue_of_ofName {name : String} {e : Error}
    (refused : SolutionType.ofName name = .error e) : e.isBadValue = true := by
  unfold SolutionType.ofName at refused
  split at refused
  · cases refused
  · obtain rfl := Except.error.inj refused
    rfl

/-- Ranks, numbers and types that cannot be read are values that cannot be used. -/
theorem isBadValue_of_decodeInfo {type rank augmentedRank unknowns equations infoType text : String}
    {e : Error} (refused : SystemSolution.decodeInfo type rank augmentedRank unknowns equations
      infoType text = .error e) : e.isBadValue = true := by
  unfold SystemSolution.decodeInfo at refused
  obtain failed | ⟨_, -, refused⟩ := error_of_bind refused
  · exact isBadValue_of_readInt failed
  obtain failed | ⟨_, -, refused⟩ := error_of_bind refused
  · exact isBadValue_of_readInt failed
  obtain failed | ⟨_, -, refused⟩ := error_of_bind refused
  · exact isBadValue_of_readInt failed
  obtain failed | ⟨_, -, refused⟩ := error_of_bind refused
  · exact isBadValue_of_readInt failed
  obtain failed | ⟨_, -, refused⟩ := error_of_bind refused
  · exact isBadValue_of_ofName failed
  obtain failed | ⟨_, -, refused⟩ := error_of_bind refused
  · exact isBadValue_of_ofName failed
  · cases refused

/-- **The ranks, the numbers and the types of a solution**, whose record has twelve fields. -/
theorem solutionInfo_eq (first type rank augmentedRank unknowns equations infoType infoText text
      particular homogeneous augmented : String) :
    solutionInfo [first, type, rank, augmentedRank, unknowns, equations, infoType, infoText, text,
        particular, homogeneous, augmented] =
      (SystemSolution.decodeInfo type rank augmentedRank unknowns equations infoType infoText).map
        Prod.swap := by
  rw [SystemSolution.decodeInfo]
  simp only [map_bind]
  rfl

/-- **The solution of a record.** -/
theorem decodeSolution_eq (record : String) :
    decodeSolution record = SystemSolution.decode record := by
  rw [decodeSolution, SystemSolution.decode]
  congr 1
  funext fields
  rw [isHeaded_eq 11, bind_ok]
  by_cases long : fields.length = 12
  · simp only [List.length_eq_succ_iff, List.length_eq_zero_iff] at long
    obtain ⟨first, _, rfl, type, _, rfl, rank, _, rfl, augmentedRank, _, rfl, unknowns, _, rfl,
      equations, _, rfl, infoType, _, rfl, infoText, _, rfl, text, _, rfl, particular, _, rfl,
      homogeneous, _, rfl, augmented, _, rfl, rfl⟩ := long
    by_cases marked : first = SystemSolution.mark
    · rw [if_pos (by simp [marked]), solutionInfo_eq, guarded_eq]
      · dsimp only
        rw [if_neg (not_not.mpr marked)]
        cases SystemSolution.decodeInfo type rank augmentedRank unknowns equations infoType
          infoText with
        | error e => rfl
        | ok info =>
          show decodeMatrix particular >>= _ = _
          simp only [decodeMatrix_eq]
          rfl
      · intro e refused
        exact isBadValue_of_decodeInfo (error_of_map refused)
    · rw [if_neg (by simp [marked])]
      dsimp only
      rw [if_pos marked]
      rfl
  · rw [if_neg (by simp [long])]
    split
    · exact absurd rfl long
    · rfl

/-! ## Any text -/

/-- **A reader that is safe for any text.** -/
structure IsSafe {α : Type} (read : String → Except Error α) (write : α → String) : Prop where
  /-- A text is read, or it is refused as malformed. -/
  outcome : ∀ text, (∃ value, read text = .ok value) ∨
    ∃ e, read text = .error e ∧ e.kind = .invalidArgument
  /-- Every value is read when it is written. -/
  written : ∀ value, read (write value) = .ok value
  /-- What was read, in whatever layout, is read again when it is written. -/
  again : ∀ text value, read text = .ok value → read (write value) = .ok value

theorem isSafe_of {α : Type} {read : String → Except Error α} {write : α → String}
    (kind : ∀ text e, read text = .error e → e.kind = .invalidArgument)
    (back : ∀ value, read (write value) = .ok value) : IsSafe read write where
  outcome text := by
    cases done : read text with
    | ok value => exact .inl ⟨value, rfl⟩
    | error e => exact .inr ⟨e, rfl, kind text e done⟩
  written := back
  again _ value _ := back value

end Numbered

end ExactAlgebra
