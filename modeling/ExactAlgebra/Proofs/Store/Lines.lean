import ExactAlgebra.Proofs.Error.Run
import ExactAlgebra.Proofs.Expression.Lexing
import ExactAlgebra.Proofs.Rational.Text
import ExactAlgebra.Proofs.Text.Split
import ExactAlgebra.Store.NamedResult

/-!
# Files of results, line by line

A line of such a file is a name, a tab and a record. A name has no tab and is not blank, and a
record has no line end, so the line is found as a whole, it is not skipped, and it is cut at the
first tab. What a file gives is again a list of names and records of this kind; and reading it fails
at its first line that is wrong.

## Main statements

* `importLines_exported` — lines that were written are read;
* `isEntry_of_importLines` — what is read could have been written;
* `importLines_error_iff` — why a file cannot be read.

## Main definitions

* `IsEntry` — a name with a record that can be read, in one line.
-/

namespace ExactAlgebra

open Text

/-- **A name and a record that can be read**, without a line end in it. -/
structure IsEntry (entry : String × String) : Prop where
  named : isName entry.1 = true
  oneLine : ∀ c ∈ entry.2.toList, c ≠ '\n' ∧ c ≠ '\r'
  decoded : ∃ r, Result.decode entry.2 = .ok r

/-! ## Names -/

/-- The characters of a name are letters, digits and underscores. -/
theorem toNat_of_isNamePart {c : Char} (part : isNamePart c = true) :
    48 ≤ c.toNat ∧ c.toNat ≤ 122 := by
  rcases (Bool.or_eq_true _ _).mp part with alphanum | underscore
  · rcases (Bool.or_eq_true _ _).mp alphanum with letter | digit
    · obtain ⟨low, high⟩ := Expression.isAlpha_toNat letter
      omega
    · obtain ⟨above, below⟩ := (Bool.and_eq_true _ _).mp digit
      have low : 48 ≤ c.toNat := of_decide_eq_true above
      have high : c.toNat ≤ 57 := of_decide_eq_true below
      omega
  · rw [of_decide_eq_true underscore]
    decide

/-- They are not blank. -/
theorem isBlank_of_isNamePart {c : Char} (part : isNamePart c = true) : isBlank c = false := by
  obtain ⟨low, high⟩ := toNat_of_isNamePart part
  simp only [isBlank, Bool.or_eq_false_iff, Bool.and_eq_false_iff, decide_eq_false_iff_not,
    beq_eq_false_iff_ne, ne_eq]
  omega

theorem isNamePart_of_mem {name : String} (named : isName name = true) :
    ∀ c ∈ name.toList, isNamePart c = true := by
  intro c mem
  rw [isName] at named
  split at named
  · cases named
  · rename_i first rest chars
    rw [chars] at mem
    obtain ⟨start, parts⟩ := (Bool.and_eq_true _ _).mp named
    rcases List.mem_cons.mp mem with rfl | mem
    · rw [isNameStart] at start
      rw [isNamePart, Char.isAlphanum]
      grind
    · exact List.all_eq_true.mp parts c mem

/-- A name is taken as it is. -/
theorem checkName_of_isName {name : String} (named : isName name = true) :
    checkName name = .ok name := by
  have bare : trim name = name := by
    rw [trim, stripped_of_none, String.ofList_toList]
    exact fun c mem => isBlank_of_isNamePart (isNamePart_of_mem named c mem)
  rw [checkName, bare, if_pos named]

theorem isName_of_checkName {text name : String} (checked : checkName text = .ok name) :
    isName name = true := by
  rw [checkName] at checked
  split at checked
  · rename_i named
    rwa [← Except.ok.inj checked]
  · cases checked

/-! ## Cutting -/

/-- The parts are joined again. -/
theorem intercalate_splitFrom (cs : List Char) :
    ∃ first others, splitFrom ['\t'] 0 [] cs = first :: others ∧
      "\t".intercalate ((first :: others).map String.ofList) = String.ofList cs := by
  rw [splitFrom_eq_splitOn]
  obtain ⟨first, others, parts⟩ := List.exists_cons_of_ne_nil (List.splitOn_ne_nil '\t' cs)
  refine ⟨first, others, parts, String.toList_injective ?_⟩
  rw [← parts, String.toList_intercalate, List.map_map, String.toList_ofList]
  simp

namespace Workspace

/-! ## Lines -/

/-- A line is found up to its end. -/
theorem linesFrom_line {line : List Char} (oneLine : ∀ c ∈ line, c ≠ '\n' ∧ c ≠ '\r')
    (read rest : List Char) :
    linesFrom read (line ++ '\n' :: rest) = (read.reverse ++ line) :: linesFrom [] rest := by
  induction line generalizing read with
  | nil =>
    rw [List.nil_append, linesFrom, if_pos (.inl rfl), List.append_nil]
    simp
  | cons c line ih =>
    obtain ⟨here, later⟩ := List.forall_mem_cons.mp oneLine
    rw [List.cons_append, linesFrom, if_neg (by simp [here]), ih later]
    · simp
    · exact fun _ same => absurd same here.2

/-- The lines of a text have no line ends. -/
theorem oneLine_of_mem_linesFrom {cs read : List Char}
    (before : ∀ c ∈ read, c ≠ '\n' ∧ c ≠ '\r') :
    ∀ line ∈ linesFrom read cs, ∀ c ∈ line, c ≠ '\n' ∧ c ≠ '\r' := by
  have first : ∀ c ∈ read.reverse, c ≠ '\n' ∧ c ≠ '\r' := fun c mem =>
    before c (List.mem_reverse.mp mem)
  fun_induction linesFrom read cs with
  | case1 => simp
  | case2 read nonempty =>
    intro line mem
    rwa [List.mem_singleton.mp mem]
  | case3 read rest ih => exact List.forall_mem_cons.mpr ⟨first, ih (by simp) (by simp)⟩
  | case4 read c rest noPair lineEnd ih =>
    exact List.forall_mem_cons.mpr ⟨first, ih (by simp) (by simp)⟩
  | case5 read c rest noPair inside ih =>
    rw [not_or] at inside
    have longer : ∀ d ∈ c :: read, d ≠ '\n' ∧ d ≠ '\r' :=
      List.forall_mem_cons.mpr ⟨inside, before⟩
    exact ih longer fun d mem => longer d (List.mem_reverse.mp mem)

/-! ## Entries -/

/-- The line of an entry, without its end. -/
def entryLine (entry : String × String) : List Char :=
  entry.1.toList ++ '\t' :: entry.2.toList

/-- **A line is cut at its first tab.** The record is checked before the name. -/
theorem importLine_tab {name record : List Char} (noTab : '\t' ∉ name)
    (notBlank : (name ++ '\t' :: record).all isBlank = false) (path : String) (number : ℕ) :
    importLine path number (name ++ '\t' :: record) = (do
      let _ ← Result.decode (String.ofList record)
      return some (← checkName (String.ofList name), String.ofList record)) := by
  obtain ⟨first, others, cut, joined⟩ := intercalate_splitFrom record
  rw [importLine, notBlank, if_neg Bool.false_ne_true, splitFrom_separator noTab, cut]
  simp only [joined, List.reverse_nil, List.nil_append]

theorem importLine_noTab {line : List Char} (noTab : '\t' ∉ line)
    (notBlank : line.all isBlank = false) (path : String) (number : ℕ) :
    importLine path number line = .error (.noSeparator number path) := by
  rw [importLine, notBlank, if_neg Bool.false_ne_true, splitFrom_of_not_mem noTab]

/-- **A line that was written is read.** -/
theorem importLine_entryLine {entry : String × String} (isEntry : IsEntry entry) (path : String)
    (number : ℕ) : importLine path number (entryLine entry) = .ok (some entry) := by
  obtain ⟨r, decoded⟩ := isEntry.decoded
  have parts := isNamePart_of_mem isEntry.named
  have noTab : '\t' ∉ entry.1.toList := fun mem => absurd (parts _ mem) (by decide)
  have notBlank : (entryLine entry).all isBlank = false := by
    cases chars : entry.1.toList with
    | nil =>
      have named := isEntry.named
      rw [isName, chars] at named
      cases named
    | cons c rest =>
      have first : isBlank c = false :=
        isBlank_of_isNamePart (parts c (by rw [chars]; exact List.mem_cons_self))
      rw [entryLine, chars, List.cons_append, List.all_cons, first, Bool.false_and]
  rw [entryLine, importLine_tab noTab notBlank]
  simp only [String.ofList_toList, decoded, checkName_of_isName isEntry.named]
  rfl

/-- **Lines that were written** are all read. -/
theorem importLines_exported {entries : List (String × String)}
    (each : ∀ entry ∈ entries, IsEntry entry) (path : String) (number : ℕ) :
    importLines path number (entries.map entryLine) = .ok entries := by
  induction entries generalizing number with
  | nil => rfl
  | cons entry rest ih =>
    obtain ⟨here, later⟩ := List.forall_mem_cons.mp each
    rw [List.map_cons, importLines, importLine_entryLine here, ih later]
    rfl

/-- The lines of a file that was written. -/
theorem linesFrom_exported {entries : List (String × String)}
    (each : ∀ entry ∈ entries, IsEntry entry) :
    linesFrom [] (entries.flatMap fun entry => entryLine entry ++ ['\n']) =
      entries.map entryLine := by
  induction entries with
  | nil => rfl
  | cons entry rest ih =>
    obtain ⟨here, later⟩ := List.forall_mem_cons.mp each
    have oneLine : ∀ c ∈ entryLine entry, c ≠ '\n' ∧ c ≠ '\r' := by
      intro c mem
      rcases List.mem_append.mp mem with mem | mem
      · obtain ⟨low, -⟩ := toNat_of_isNamePart (isNamePart_of_mem here.named c mem)
        constructor <;> rintro rfl <;> revert low <;> decide
      · rcases List.mem_cons.mp mem with rfl | mem
        · decide
        · exact here.oneLine c mem
    rw [List.flatMap_cons, List.append_assoc, List.singleton_append, linesFrom_line oneLine,
      ih later]
    rfl

/-- The first tab of a line. -/
theorem exists_tab {line : List Char} (tab : '\t' ∈ line) :
    ∃ name record, line = name ++ '\t' :: record ∧ '\t' ∉ name := by
  obtain ⟨name, record, cut, noTab⟩ := List.eq_append_cons_of_mem tab
  exact ⟨name, record, cut, noTab⟩

/-- **What is read from a line** could have been written. -/
theorem isEntry_of_importLine {path : String} {number : ℕ} {line : List Char}
    {entry : String × String} (oneLine : ∀ c ∈ line, c ≠ '\n' ∧ c ≠ '\r')
    (read : importLine path number line = .ok (some entry)) : IsEntry entry := by
  cases notBlank : line.all isBlank with
  | true =>
    rw [importLine, if_pos notBlank] at read
    cases read
  | false =>
    by_cases tab : '\t' ∈ line
    · obtain ⟨name, record, rfl, noTab⟩ := exists_tab tab
      rw [importLine_tab noTab notBlank] at read
      obtain ⟨r, decoded, read⟩ := ok_of_bind read
      obtain ⟨checked, named, read⟩ := ok_of_bind read
      obtain rfl := Option.some.inj (Except.ok.inj read)
      refine ⟨isName_of_checkName named, ?_, r, decoded⟩
      intro c mem
      rw [String.toList_ofList] at mem
      exact oneLine c (List.mem_append_right _ (List.mem_cons_of_mem _ mem))
    · rw [importLine_noTab tab notBlank] at read
      cases read

theorem isEntry_of_importLines {path : String} {number : ℕ} {lines : List (List Char)}
    {entries : List (String × String)}
    (oneLine : ∀ line ∈ lines, ∀ c ∈ line, c ≠ '\n' ∧ c ≠ '\r')
    (read : importLines path number lines = .ok entries) : ∀ entry ∈ entries, IsEntry entry := by
  induction lines generalizing number entries with
  | nil =>
    cases read
    exact List.forall_mem_nil _
  | cons line rest ih =>
    obtain ⟨first, others⟩ := List.forall_mem_cons.mp oneLine
    obtain ⟨found, here, read⟩ := ok_of_bind read
    obtain ⟨later, there, read⟩ := ok_of_bind read
    obtain rfl := Except.ok.inj read
    intro entry mem
    rcases List.mem_append.mp mem with mem | mem
    · rw [Option.mem_toList] at mem
      rw [mem] at here
      exact isEntry_of_importLine first here
    · exact ih others there entry mem

/-! ## Wrong lines -/

/-- **Why a line is wrong**: it has no tab, its record cannot be read, or its name is none. -/
inductive IsWrong (path : String) (number : ℕ) (line : List Char) : Error → Prop where
  | noTab (notBlank : line.all isBlank = false) (noTab : '\t' ∉ line) :
      IsWrong path number line (.noSeparator number path)
  | badRecord {name record : List Char} {e : Error} (notBlank : line.all isBlank = false)
      (cut : line = name ++ '\t' :: record) (noTab : '\t' ∉ name)
      (bad : Result.decode (String.ofList record) = .error e) : IsWrong path number line e
  | badName {name record : List Char} {r : Result} (notBlank : line.all isBlank = false)
      (cut : line = name ++ '\t' :: record) (noTab : '\t' ∉ name)
      (decoded : Result.decode (String.ofList record) = .ok r)
      (bad : isName (trim (String.ofList name)) = false) :
      IsWrong path number line (.badName (trim (String.ofList name)))

/-- A line that cannot be read is wrong. -/
theorem isWrong_of_importLine {path : String} {number : ℕ} {line : List Char} {e : Error}
    (failed : importLine path number line = .error e) : IsWrong path number line e := by
  cases notBlank : line.all isBlank with
  | true =>
    rw [importLine, if_pos notBlank] at failed
    cases failed
  | false =>
    by_cases tab : '\t' ∈ line
    · obtain ⟨name, record, rfl, noTab⟩ := exists_tab tab
      rw [importLine_tab noTab notBlank] at failed
      -- the record comes first, so a bad name is found only behind a record that can be read
      cases decoded : Result.decode (String.ofList record) with
      | error cause =>
        rw [decoded] at failed
        obtain rfl : cause = e := Except.error.inj failed
        exact .badRecord notBlank rfl noTab decoded
      | ok r =>
        rw [decoded, checkName] at failed
        cases bad : isName (trim (String.ofList name)) with
        | true =>
          rw [if_pos bad] at failed
          cases failed
        | false =>
          rw [if_neg (by rw [bad]; exact Bool.false_ne_true)] at failed
          obtain rfl : Error.badName _ = e := Except.error.inj failed
          exact .badName notBlank rfl noTab decoded bad
    · rw [importLine_noTab tab notBlank] at failed
      obtain rfl := Except.error.inj failed
      exact .noTab notBlank tab

/-- **A line cannot be read** if it is wrong. -/
theorem importLine_error_iff {path : String} {number : ℕ} {line : List Char} {e : Error} :
    importLine path number line = .error e ↔ IsWrong path number line e := by
  constructor
  · exact isWrong_of_importLine
  · intro wrong
    cases wrong with
    | noTab notBlank noTab => exact importLine_noTab noTab notBlank path number
    | badRecord notBlank cut noTab bad =>
      subst cut
      rw [importLine_tab noTab notBlank, bad]
      rfl
    | badName notBlank cut noTab decoded bad =>
      subst cut
      rw [importLine_tab noTab notBlank, decoded, checkName, bad]
      rfl

/-- A line that is wrong is so wherever it stands. -/
theorem IsWrong.anywhere {path : String} {number : ℕ} {line : List Char} {e : Error}
    (wrong : IsWrong path number line e) (other : ℕ) : ∃ cause, IsWrong path other line cause := by
  cases wrong with
  | noTab notBlank noTab => exact ⟨_, .noTab notBlank noTab⟩
  | badRecord notBlank cut noTab bad => exact ⟨e, .badRecord notBlank cut noTab bad⟩
  | badName notBlank cut noTab decoded bad => exact ⟨_, .badName notBlank cut noTab decoded bad⟩

/-- A line that is not wrong is read. -/
theorem exists_importLine_iff {path : String} (number : ℕ) {line : List Char} :
    (∃ found, importLine path number line = .ok found) ↔
      ∀ n cause, ¬ IsWrong path n line cause := by
  constructor
  · rintro ⟨found, read⟩ n cause wrong
    obtain ⟨cause, here⟩ := wrong.anywhere number
    rw [importLine_error_iff.mpr here] at read
    cases read
  · intro right
    cases read : importLine path number line with
    | ok found => exact ⟨found, rfl⟩
    | error cause => exact absurd (importLine_error_iff.mp read) (right number cause)

/-- The lines in front of a wrong one are passed over. -/
theorem importLines_of_isWrong {path : String} {number : ℕ} {before after : List (List Char)}
    {line : List Char} {e : Error}
    (right : ∀ earlier ∈ before, ∀ n cause, ¬ IsWrong path n earlier cause)
    (wrong : IsWrong path (number + before.length) line e) :
    importLines path number (before ++ line :: after) = .error e := by
  induction before generalizing number with
  | nil =>
    have here : importLine path number line = .error e := importLine_error_iff.mpr wrong
    rw [List.nil_append, importLines, here]
    rfl
  | cons first before ih =>
    obtain ⟨firstRight, others⟩ := List.forall_mem_cons.mp right
    obtain ⟨found, read⟩ := (exists_importLine_iff number).mpr firstRight
    rw [List.length_cons, Nat.add_comm before.length, ← Nat.add_assoc] at wrong
    rw [List.cons_append, importLines, read]
    exact bind_ok_eq_error.mpr (ih others wrong)

/-- Where reading stops there is a wrong line. -/
theorem exists_isWrong_of_importLines {path : String} {number : ℕ} {lines : List (List Char)}
    {e : Error} (failed : importLines path number lines = .error e) :
    ∃ before line after, lines = before ++ line :: after ∧
      (∀ earlier ∈ before, ∀ n cause, ¬ IsWrong path n earlier cause) ∧
      IsWrong path (number + before.length) line e := by
  induction lines generalizing number with
  | nil => cases failed
  | cons first rest ih =>
    rw [importLines] at failed
    cases read : importLine path number first with
    | error cause =>
      rw [read] at failed
      obtain rfl : cause = e := Except.error.inj failed
      exact ⟨[], first, rest, rfl, List.forall_mem_nil _, importLine_error_iff.mp read⟩
    | ok found =>
      rw [read] at failed
      obtain ⟨before, line, after, rfl, right, wrong⟩ := ih (bind_ok_eq_error.mp failed)
      have firstRight := (exists_importLine_iff number).mp ⟨found, read⟩
      refine ⟨first :: before, line, after, rfl, List.forall_mem_cons.mpr ⟨firstRight, right⟩, ?_⟩
      rwa [List.length_cons, Nat.add_comm before.length, ← Nat.add_assoc]

/-- **Lines cannot be read** if one of them is wrong; the first of these is reported. -/
theorem importLines_error_iff {path : String} {number : ℕ} {lines : List (List Char)}
    {e : Error} : importLines path number lines = .error e ↔
      ∃ before line after, lines = before ++ line :: after ∧
        (∀ earlier ∈ before, ∀ n cause, ¬ IsWrong path n earlier cause) ∧
        IsWrong path (number + before.length) line e := by
  constructor
  · exact exists_isWrong_of_importLines
  · rintro ⟨before, line, after, rfl, right, wrong⟩
    exact importLines_of_isWrong right wrong

end Workspace

end ExactAlgebra
