import ExactAlgebra.Matrix.Text
import ExactAlgebra.Proofs.Error.Run
import ExactAlgebra.Proofs.Rational.Marks
import ExactAlgebra.Proofs.Record.Matrix

/-!
# What a matrix text is read for

The entries of a typed matrix are the runs of characters between brackets, commas, semicolons and
blanks. Rows between semicolons are read completely. Rows in brackets of their own are looked for in
the text, and whatever stands before, between and after them is passed over without a word: `[[1] 2
[3]]` is read as the rows `[1]` and `[3]`.

## Main statements

* `wordsFrom_eq`, `flatMap_splitFrom` — the cells of rows are runs;
* `exists_layout`, `Layout.bracketed_text` — every text can be taken apart, into the rows that are
  looked for;
* `parse_keeps` — which runs of a text become entries.

## Main definitions

* `runs` — the maximal runs of characters that are no breaks;
* `Layout` — a text taken apart into rows in brackets and what stands around them.
-/

namespace ExactAlgebra

open Text

namespace Mat

/-! ## Runs -/

/-- **The runs of a text**: its longest parts without breaks. -/
def runs (isBreak : Char → Bool) (cs : List Char) : List (List Char) :=
  (cs.splitOnP isBreak).filter (· ≠ [])

section Runs

variable {p q : Char → Bool} {c : Char} {cs xs : List Char}

theorem runs_break (xs ys : List Char) (break_ : p c = true) :
    runs p (xs ++ c :: ys) = runs p xs ++ runs p ys := by
  rw [runs, List.splitOnP_append_cons _ _ break_, List.filter_append, runs, runs]

theorem runs_nil : runs p [] = [] :=
  rfl

/-- A text without breaks is one run. -/
theorem runs_of_none (none : ∀ c ∈ xs, p c = false) : runs p xs = if xs = [] then [] else [xs] := by
  rw [runs, List.splitOnP_eq_singleton none]
  split
  · rename_i empty
    rw [empty]
    rfl
  · rename_i some
    rw [List.filter_cons_of_pos (by simpa using some), List.filter_nil]

theorem runs_breaks_append (breaks : ∀ c ∈ xs, p c = true) (ys : List Char) :
    runs p (xs ++ ys) = runs p ys := by
  induction xs with
  | nil => rfl
  | cons c rest ih =>
    obtain ⟨here, there⟩ := List.forall_mem_cons.mp breaks
    rw [List.cons_append, ← List.nil_append (c :: (rest ++ ys)), runs_break _ _ here, ih there, runs_nil,
      List.nil_append]

theorem runs_append_breaks (breaks : ∀ c ∈ xs, p c = true) (ys : List Char) :
    runs p (ys ++ xs) = runs p ys := by
  cases xs with
  | nil => rw [List.append_nil]
  | cons c rest =>
    obtain ⟨here, there⟩ := List.forall_mem_cons.mp breaks
    rw [runs_break _ _ here, ← List.append_nil rest, runs_breaks_append there, runs_nil,
      List.append_nil]

theorem runs_congr (same : ∀ c ∈ cs, p c = q c) : runs p cs = runs q cs := by
  suffices split : cs.splitOnP p = cs.splitOnP q by rw [runs, split, runs]
  induction cs with
  | nil => rfl
  | cons c rest ih =>
    obtain ⟨here, there⟩ := List.forall_mem_cons.mp same
    rw [List.splitOnP_cons_eq_if_modifyHead, List.splitOnP_cons_eq_if_modifyHead, here, ih there]

/-- **Every other character is in a run.** -/
theorem exists_run (mem : c ∈ cs) (other : p c = false) : ∃ run ∈ runs p cs, c ∈ run := by
  suffices inside : ∃ part ∈ cs.splitOnP p, c ∈ part by
    obtain ⟨part, mem, here⟩ := inside
    exact ⟨part, List.mem_filter.mpr ⟨mem, decide_eq_true (List.ne_nil_of_mem here)⟩, here⟩
  induction cs with
  | nil => exact absurd mem List.not_mem_nil
  | cons d rest ih =>
    rw [List.splitOnP_cons_eq_if_modifyHead]
    split
    · rename_i break_
      rcases List.mem_cons.mp mem with rfl | mem
      · rw [other] at break_
        cases break_
      · obtain ⟨part, inside, here⟩ := ih mem
        exact ⟨part, List.mem_cons_of_mem _ inside, here⟩
    · -- the first part of the rest gets one character more
      obtain ⟨first, others, parts⟩ := List.exists_cons_of_ne_nil (List.splitOnP_ne_nil p rest)
      rw [parts] at ih ⊢
      rw [List.modifyHead_cons]
      rcases List.mem_cons.mp mem with rfl | mem
      · exact ⟨_, List.mem_cons_self, List.mem_cons_self⟩
      · obtain ⟨part, inside, here⟩ := ih mem
        rcases List.mem_cons.mp inside with rfl | inside
        · exact ⟨_, List.mem_cons_self, List.mem_cons_of_mem _ here⟩
        · exact ⟨part, List.mem_cons_of_mem _ inside, here⟩

/-! ## Rows and cells -/

/-- Whether a character stands between the entries in a matrix text. -/
def isBreak (c : Char) : Bool :=
  isMark c || isCellBreak c

/-- The cells of a row are its runs. -/
theorem wordsFrom_eq {word : List Char} (whole : ∀ c ∈ word, isCellBreak c = false)
    (cs : List Char) : wordsFrom word cs = runs isCellBreak (word.reverse ++ cs) := by
  induction cs generalizing word with
  | nil =>
    rw [List.append_nil, runs_of_none fun c mem => whole c (List.mem_reverse.mp mem), wordsFrom]
    simp only [List.reverse_eq_nil_iff]
  | cons c rest ih =>
    rw [wordsFrom]
    split
    · rename_i break_
      have after : wordsFrom [] rest = runs isCellBreak rest := ih (by simp)
      rw [runs_break _ _ break_, runs_of_none fun c mem => whole c (List.mem_reverse.mp mem), after]
      simp only [List.reverse_eq_nil_iff]
      split
      · rw [List.nil_append]
      · rw [List.singleton_append]
    · rename_i other
      rw [ih (List.forall_mem_cons.mpr ⟨by simpa using other, whole⟩), List.reverse_cons,
        List.append_assoc, List.singleton_append]

/-- **Rows between semicolons** have all runs of the text. -/
theorem flatMap_splitFrom {part : List Char} (whole : ';' ∉ part) (cs : List Char) :
    (splitFrom [';'] 0 part cs).flatMap (wordsFrom []) =
      runs (fun c => c = ';' || isCellBreak c) (part.reverse ++ cs) := by
  have row : ∀ cs : List Char, ';' ∉ cs →
      wordsFrom [] cs = runs (fun c => c = ';' || isCellBreak c) cs := by
    intro cs none
    rw [wordsFrom_eq (by simp), List.reverse_nil, List.nil_append]
    refine runs_congr fun c mem => ?_
    have other : c ≠ ';' := by
      rintro rfl
      exact none mem
    rw [decide_eq_false other, Bool.false_or]
  induction cs generalizing part with
  | nil =>
    rw [splitFrom, List.flatMap_singleton, row _ (by simpa using whole), List.append_nil]
  | cons c rest ih =>
    rw [splitFrom]
    by_cases semicolon : c = ';'
    · subst semicolon
      rw [if_pos (by simp [List.isPrefixOf]), List.flatMap_cons, row _ (by simpa using whole)]
      rw [runs_break _ _ (by simp)]
      exact congrArg _ (ih (by simp))
    · rw [if_neg (by simp [List.isPrefixOf, Ne.symm semicolon]),
        ih (by simpa [Ne.symm semicolon] using whole), List.reverse_cons, List.append_assoc,
        List.singleton_append]

end Runs

/-! ## Rows in brackets -/

/-- **Text without a bracketed group**: no bracket is closed after one was opened. -/
def IsGap (cs : List Char) : Prop :=
  ∃ front back, cs = front ++ back ∧ '[' ∉ front ∧ ']' ∉ back

/-- A text with rows in brackets: what stands before the first row, and each row with what follows
it. -/
def spread (before : List Char) : List (List Char × List Char) → List Char
  | [] => before
  | (row, after) :: rest => before ++ '[' :: (row ++ ']' :: spread after rest)

/-- **A text taken apart**: rows in brackets that hold no brackets themselves, and what stands
around them and has no such rows. -/
structure Layout where
  before : List Char
  rows : List (List Char × List Char)
  gap : IsGap before
  gaps : ∀ row ∈ rows, IsGap row.2
  plain : ∀ row ∈ rows, ∀ c ∈ row.1, isBracket c = false

namespace Layout

/-- The text again. -/
def text (l : Layout) : List Char :=
  spread l.before l.rows

/-- The runs inside of the rows. -/
def kept (l : Layout) : List (List Char) :=
  l.rows.flatMap fun row => runs isBreak row.1

/-- **The runs that stand outside of all rows.** -/
def strays (l : Layout) : List (List Char) :=
  runs isBreak l.before ++ l.rows.flatMap fun row => runs isBreak row.2

end Layout

section Layouts

variable {c : Char} {cs row before : List Char} {inner : Option (List Char)}

theorem ne_of_isBracket_false (plain : isBracket c = false) : c ≠ '[' ∧ c ≠ ']' := by
  simpa [isBracket] using plain

/-! ### Taking apart -/

theorem isGap_nil : IsGap [] :=
  ⟨[], [], rfl, List.not_mem_nil, List.not_mem_nil⟩

theorem IsGap.cons (gap : IsGap cs) (other : c ≠ '[') : IsGap (c :: cs) := by
  obtain ⟨front, back, rfl, opened, closed⟩ := gap
  exact ⟨c :: front, back, rfl, by simpa [Ne.symm other] using opened, closed⟩

/-- A bracket that is opened starts a row, unless none is closed before the next row. -/
theorem IsGap.cut (gap : IsGap cs) :
    (∃ row after, cs = row ++ ']' :: after ∧ (∀ c ∈ row, isBracket c = false) ∧ IsGap after) ∨
      IsGap ('[' :: cs) := by
  obtain ⟨front, back, rfl, opened, closed⟩ := gap
  by_cases some : ']' ∈ front
  · obtain ⟨row, after, rfl, plain⟩ := List.eq_append_cons_of_mem some
    simp only [List.mem_append, List.mem_cons, not_or] at opened
    refine .inl ⟨row, after ++ back, by simp, fun c mem => ?_, after, back, rfl, opened.2.2, closed⟩
    have open_ : c ≠ '[' := fun same => opened.1 (same ▸ mem)
    have close : c ≠ ']' := fun same => plain (same ▸ mem)
    simp [isBracket, open_, close]
  · refine .inr ⟨[], '[' :: (front ++ back), rfl, List.not_mem_nil, ?_⟩
    simp [some, closed]

/-- **Every text can be taken apart.** -/
theorem exists_layout (cs : List Char) : ∃ l : Layout, l.text = cs := by
  -- from the end of the text, one character after another
  induction cs with
  | nil => exact ⟨⟨[], [], isGap_nil, by simp, by simp⟩, rfl⟩
  | cons c rest ih =>
    obtain ⟨⟨before, rows, gap, gaps, plain⟩, rfl⟩ := ih
    by_cases opens : c = '['
    · subst opens
      rcases gap.cut with ⟨row, after, rfl, bare, gap⟩ | gap
      · refine ⟨⟨[], (row, after) :: rows, isGap_nil, List.forall_mem_cons.mpr ⟨gap, gaps⟩,
          List.forall_mem_cons.mpr ⟨bare, plain⟩⟩, ?_⟩
        cases rows <;> simp [Layout.text, spread]
      · refine ⟨⟨'[' :: before, rows, gap, gaps, plain⟩, ?_⟩
        cases rows <;> simp [Layout.text, spread]
    · refine ⟨⟨c :: before, rows, gap.cons opens, gaps, plain⟩, ?_⟩
      cases rows <;> simp [Layout.text, spread]

/-! ### Reading again -/

theorem bracketed_none_append {front : List Char} (opened : '[' ∉ front) (cs : List Char) :
    bracketed none (front ++ cs) = bracketed none cs := by
  induction front with
  | nil => rfl
  | cons c rest ih =>
    simp only [List.mem_cons, not_or] at opened
    rw [List.cons_append, bracketed, if_neg (Ne.symm opened.1)]
    split <;> exact ih opened.2

/-- A bracket that is opened starts a row anew, any other character goes on with it. -/
theorem bracketed_cons (inner : Option (List Char)) (close : c ≠ ']') (cs : List Char) :
    bracketed inner (c :: cs) =
      bracketed (if c = '[' then some [] else inner.map (c :: ·)) cs := by
  cases inner <;> rw [bracketed, if_neg close] <;> split <;> rfl

theorem bracketed_open {back : List Char} (closed : ']' ∉ back) (inner : Option (List Char))
    (cs : List Char) : bracketed inner (back ++ '[' :: cs) = bracketed (some []) cs := by
  induction back generalizing inner with
  | nil => rw [List.nil_append, bracketed_cons _ (by decide), if_pos rfl]
  | cons c rest ih =>
    simp only [List.mem_cons, not_or] at closed
    rw [List.cons_append, bracketed_cons _ (Ne.symm closed.1), ih closed.2]

theorem bracketed_unclosed {back : List Char} (closed : ']' ∉ back) (inner : Option (List Char)) :
    bracketed inner back = [] := by
  induction back generalizing inner with
  | nil => cases inner <;> rfl
  | cons c rest ih =>
    simp only [List.mem_cons, not_or] at closed
    rw [bracketed_cons _ (Ne.symm closed.1), ih closed.2]

theorem bracketed_row (plain : ∀ c ∈ row, isBracket c = false) (read cs : List Char) :
    bracketed (some read) (row ++ ']' :: cs) = (read.reverse ++ row) :: bracketed none cs := by
  induction row generalizing read with
  | nil => rw [List.nil_append, bracketed, if_neg (by decide), if_pos rfl, List.append_nil]
  | cons c rest ih =>
    obtain ⟨here, there⟩ := List.forall_mem_cons.mp plain
    obtain ⟨opens, closes⟩ := ne_of_isBracket_false here
    rw [List.cons_append, bracketed_cons _ closes, if_neg opens, Option.map_some, ih there,
      List.reverse_cons, List.append_assoc, List.singleton_append]

theorem bracketed_spread {rows : List (List Char × List Char)} (gap : IsGap before)
    (gaps : ∀ row ∈ rows, IsGap row.2) (plain : ∀ row ∈ rows, ∀ c ∈ row.1, isBracket c = false) :
    bracketed none (spread before rows) = rows.map (·.1) := by
  induction rows generalizing before with
  | nil =>
    obtain ⟨front, back, rfl, opened, closed⟩ := gap
    rw [spread, bracketed_none_append opened, bracketed_unclosed closed, List.map_nil]
  | cons row rest ih =>
    obtain ⟨front, back, rfl, opened, closed⟩ := gap
    obtain ⟨gap, gaps⟩ := List.forall_mem_cons.mp gaps
    obtain ⟨bare, plain⟩ := List.forall_mem_cons.mp plain
    rw [spread, List.append_assoc, bracketed_none_append opened, bracketed_open closed,
      bracketed_row bare, ih gap gaps plain, List.map_cons, List.reverse_nil, List.nil_append]

/-- **What is looked for are the rows.** -/
theorem Layout.bracketed_text (l : Layout) : bracketed none l.text = l.rows.map (·.1) :=
  bracketed_spread l.gap l.gaps l.plain

/-! ### Runs of the text -/

theorem runs_spread (before : List Char) (rows : List (List Char × List Char)) :
    runs isBreak (spread before rows) =
      runs isBreak before ++ rows.flatMap fun row => runs isBreak row.1 ++ runs isBreak row.2 := by
  induction rows generalizing before with
  | nil => rw [spread, List.flatMap_nil, List.append_nil]
  | cons row rest ih =>
    rw [spread, runs_break _ _ (by decide), runs_break _ _ (by decide), ih, List.flatMap_cons,
      List.append_assoc]

/-- Of the runs of a text, some are in the rows, and the others stray. -/
theorem Layout.length_runs (l : Layout) :
    (runs isBreak l.text).length = l.kept.length + l.strays.length := by
  rw [text, runs_spread, kept, strays]
  simp only [List.length_append, List.length_flatMap, List.sum_map_add]
  omega

/-- **The runs in the rows** are some of the runs of the text, in their order. -/
theorem Layout.kept_sublist (l : Layout) : l.kept.Sublist (runs isBreak l.text) := by
  rw [text, runs_spread, kept]
  refine .trans ?_ (List.sublist_append_right _ _)
  induction l.rows with
  | nil => exact .slnil
  | cons row rest ih =>
    rw [List.flatMap_cons, List.flatMap_cons]
    exact (List.sublist_append_left _ _).append ih

/-- **Nothing strays exactly if all runs are in the rows.** -/
theorem Layout.strays_eq_nil_iff (l : Layout) :
    l.strays = [] ↔ (runs isBreak l.text).length = l.kept.length := by
  rw [l.length_runs, ← List.length_eq_zero_iff]
  omega

theorem Layout.runs_eq_kept {l : Layout} (whole : l.strays = []) : runs isBreak l.text = l.kept :=
  (l.kept_sublist.eq_of_length (l.strays_eq_nil_iff.mp whole).symm).symm

end Layouts

/-! ## Accepted texts -/

/-- The number that a run stands for. -/
def runValue (run : List Char) : Except Error ℚ :=
  Rational.parse (String.ofList run)

section Accepted

variable {s : String} {a : Mat} {body cs : List Char} {lists : List (List ℚ)}

theorem toLists_of_ofLists (made : ofLists lists = .ok a) : a.toLists = lists := by
  unfold ofLists at made
  split at made
  · rename_i same
    obtain rfl := Except.ok.inj made
    have lengths : ∀ row ∈ lists, row.length = widthOf lists := by simpa using same
    refine List.ext_getElem (by simp [toLists, ofRectangle]) fun i left right => ?_
    refine List.ext_getElem ?_ fun j here there => ?_
    · simp [toLists, ofRectangle, lengths _ (List.getElem_mem right)]
    · simp [toLists, ofRectangle, Grid.ofEntries, List.getElem?_eq_getElem there]
  · cases made

/-- **An accepted text** stands in brackets, and the words of its rows are the entries. -/
theorem words_of_parse (parsed : parse s = .ok a) :
    ∃ body, unwrap? (stripped isBlank s.toList) = some body ∧
      ((rowTexts body).flatMap (wordsFrom [])).mapM runValue = .ok a.entries := by
  unfold parse at parsed
  split at parsed
  · cases parsed
  · rename_i body unwrapped
    refine ⟨body, unwrapped, ?_⟩
    split at parsed
    · cases parsed
    · cases parsed
    · obtain ⟨lists, read, made⟩ := ok_of_bind parsed
      rw [List.mapM_map] at read
      rw [entries, toLists_of_ofLists made]
      refine mapM_flatMap_ok (.trans (congrArg (List.mapM · _) ?_) read)
      funext row
      rw [Function.comp_apply, Cell.values, rowCells, List.mapM_map]
      rfl

/-- Runs that stand for numbers contain no brackets and no semicolons. -/
theorem isMark_of_mem_runs {p : Char → Bool} {words : List (List Char)} {values : List ℚ} {c : Char}
    (read : words.mapM runValue = .ok values) (inside : runs p cs ⊆ words) (mem : c ∈ cs)
    (other : p c = false) : isMark c = false := by
  obtain ⟨run, here, mem⟩ := exists_run mem other
  obtain ⟨q, number⟩ := exists_ok_of_mapM read (inside here)
  exact Rational.isMark_of_parse number c (by rwa [String.toList_ofList])

theorem isCellBreak_of_isMark {c : Char} (mark : isMark c = true) : isCellBreak c = false := by
  simp only [isMark, isBracket, Bool.or_eq_true, decide_eq_true_eq] at mark
  rcases mark with (rfl | rfl) | rfl <;> decide +kernel

/-- Blanks around a text. -/
theorem stripped_between (cs : List Char) :
    ∃ front back, cs = front ++ stripped isBlank cs ++ back ∧ (∀ c ∈ front, isBlank c = true) ∧
      ∀ c ∈ back, isBlank c = true := by
  refine ⟨cs.takeWhile isBlank, ((cs.dropWhile isBlank).reverse.takeWhile isBlank).reverse, ?_,
    fun c => List.mem_takeWhile_imp, fun c mem => List.mem_takeWhile_imp (List.mem_reverse.mp mem)⟩
  rw [stripped, List.append_assoc, ← List.reverse_append, List.takeWhile_append_dropWhile,
    List.reverse_reverse, List.takeWhile_append_dropWhile]

theorem eq_of_unwrap? (unwrapped : unwrap? cs = some body) : cs = '[' :: (body ++ [']']) := by
  unfold unwrap? at unwrapped
  split at unwrapped
  · rename_i rest
    split at unwrapped
    · rename_i closed
      rw [← Option.some.inj unwrapped, List.dropLast_append_getLast? _ closed]
    · cases unwrapped
  · cases unwrapped

/-- **All runs are between the outer brackets.** -/
theorem runs_of_unwrap? (unwrapped : unwrap? (stripped isBlank cs) = some body) :
    runs isBreak cs = runs isBreak body := by
  obtain ⟨front, back, around, blanks, blanks'⟩ := stripped_between cs
  have isBreak_of_isBlank : ∀ c, isBlank c = true → isBreak c = true := fun c blank => by
    rw [isBreak, isCellBreak, blank, Bool.or_true, Bool.or_true]
  rw [around, eq_of_unwrap? unwrapped,
    runs_append_breaks fun c mem => isBreak_of_isBlank c (blanks' c mem),
    runs_breaks_append fun c mem => isBreak_of_isBlank c (blanks c mem), ← List.singleton_append,
    runs_breaks_append (List.forall_mem_singleton.mpr rfl),
    runs_append_breaks (List.forall_mem_singleton.mpr rfl)]

theorem rowTexts_nested (nested : body.head? = some '[') : rowTexts body = bracketed none body := by
  unfold rowTexts
  split
  · rfl
  · rename_i other
    obtain ⟨rest, rfl⟩ := List.head?_eq_some_iff.mp nested
    exact absurd rfl (other rest)

theorem rowTexts_plain (plain : body.head? ≠ some '[') : rowTexts body = splitFrom [';'] 0 [] body := by
  unfold rowTexts
  split
  · exact absurd rfl plain
  · rfl

/-- **Which runs of a text become entries.** All of them do, in the order of the text, if its rows
stand between semicolons. If they are in brackets of their own, the runs inside of the rows become
entries, and what strays around them is lost: the entries are all runs of the text exactly if nothing
strays. -/
theorem parse_keeps (parsed : parse s = .ok a) :
    ∃ body, stripped isBlank s.toList = '[' :: (body ++ [']']) ∧
      (body.head? ≠ some '[' → (runs isBreak s.toList).mapM runValue = .ok a.entries) ∧
      (body.head? = some '[' → ∃ l : Layout, l.text = body ∧
        l.kept.Sublist (runs isBreak s.toList) ∧ l.kept.mapM runValue = .ok a.entries ∧
        ((runs isBreak s.toList).mapM runValue = .ok a.entries ↔ l.strays = [])) := by
  obtain ⟨body, unwrapped, read⟩ := words_of_parse parsed
  refine ⟨body, eq_of_unwrap? unwrapped, fun plain => ?_, fun nested => ?_⟩
  · rw [rowTexts_plain plain, flatMap_splitFrom (by simp), List.reverse_nil, List.nil_append] at read
    rw [runs_of_unwrap? unwrapped, ← read]
    refine congrArg (List.mapM _) (runs_congr fun c mem => ?_)
    -- a bracket in the text would be part of a number
    have none : isBracket c = false := by
      by_contra bracket
      have mark : isMark c = true := by rw [isMark, Bool.eq_true_of_not_eq_false bracket, Bool.true_or]
      have semicolon : c ≠ ';' := by
        rintro rfl
        exact bracket (by decide)
      have other := isMark_of_mem_runs read (List.Subset.refl _) mem
        (by rw [decide_eq_false semicolon, isCellBreak_of_isMark mark, Bool.or_false])
      rw [mark] at other
      cases other
    rw [isBreak, isMark, none, Bool.false_or]
  · obtain ⟨l, rfl⟩ := exists_layout body
    rw [rowTexts_nested nested, l.bracketed_text, List.flatMap_map] at read
    have words : ∀ row : List Char, wordsFrom [] row = runs isCellBreak row := wordsFrom_eq (by simp)
    simp only [words] at read
    -- so would be a semicolon in a row
    have rows : l.rows.flatMap (fun row => runs isCellBreak row.1) = l.kept := by
      rw [Layout.kept]
      refine List.flatMap_congr fun row mem => runs_congr fun c inside => ?_
      rw [isBreak]
      by_cases mark : isMark c = true
      · have other := isMark_of_mem_runs read
          (fun run here => List.mem_flatMap.mpr ⟨row, mem, here⟩) inside (isCellBreak_of_isMark mark)
        rw [mark] at other
        cases other
      · rw [Bool.eq_false_of_not_eq_true mark, Bool.false_or]
    rw [rows] at read
    rw [runs_of_unwrap? unwrapped]
    refine ⟨l, rfl, l.kept_sublist, read, fun all => ?_, fun whole => ?_⟩
    · rw [l.strays_eq_nil_iff, length_eq_of_mapM all, length_eq_of_mapM read]
    · rw [Layout.runs_eq_kept whole]
      exact read

/-- What is read for `[[1] 2 [3]]`. -/
theorem parse_keeps_outer :
    parse "[[1] 2 [3]]" = .ok (ofRectangle [[1], [3]]) ∧
      ∃ body, stripped isBlank "[[1] 2 [3]]".toList = '[' :: (body ++ [']']) ∧
        (body.head? ≠ some '[' →
          (runs isBreak "[[1] 2 [3]]".toList).mapM runValue = .ok (ofRectangle [[1], [3]]).entries) ∧
        (body.head? = some '[' → ∃ l : Layout, l.text = body ∧
          l.kept.Sublist (runs isBreak "[[1] 2 [3]]".toList) ∧
          l.kept.mapM runValue = .ok (ofRectangle [[1], [3]]).entries ∧
          ((runs isBreak "[[1] 2 [3]]".toList).mapM runValue =
            .ok (ofRectangle [[1], [3]]).entries ↔ l.strays = [])) :=
  have parsed : parse "[[1] 2 [3]]" = .ok (ofRectangle [[1], [3]]) := by decide +kernel
  ⟨parsed, parse_keeps parsed⟩

/-- **A run that is lost**: the text has the numbers 1, 2 and 3, the matrix that is read from it only
1 and 3. -/
theorem not_parse_keeps_all :
    parse "[[1] 2 [3]]" = .ok (ofRectangle [[1], [3]]) ∧
      (ofRectangle [[1], [3]]).entries = [1, 3] ∧
      (runs isBreak "[[1] 2 [3]]".toList).mapM runValue = .ok [1, 2, 3] := by
  decide +kernel

end Accepted

end Mat

end ExactAlgebra
