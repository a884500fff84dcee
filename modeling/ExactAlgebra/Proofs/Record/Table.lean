import ExactAlgebra.Proofs.Rational.Text
import ExactAlgebra.Proofs.Text.Split
import ExactAlgebra.Record.Result

/-!
# Tables and quotes

A cell of a table is quoted if it holds a quote, and then the quote is its first character. Numbers
need no quotes. So a table has no quotes at all, or it begins with one.

## Main statements

* `Result.csv_quotes` — the quotes of a table.
-/

namespace ExactAlgebra

open Text

namespace Result

theorem needsQuotes_rational (q : ℚ) : needsQuotes (Rational.chars q) = false := by
  simp only [needsQuotes, List.any_eq_false, Bool.or_eq_true, decide_eq_true_eq]
  intro c mem
  rcases Rational.mem_chars mem with rfl | rfl | digit
  · decide
  · decide
  · -- what needs quotes stands in front of the digits
    have noDigit {d : Char} (below : d.toNat < 48) : isDigit d = true → False := by
      rw [isDigit, digitValue?_below below]
      exact Bool.false_ne_true
    rintro ((rfl | rfl) | rfl)
    · exact noDigit (by decide) digit
    · exact noDigit (by decide) digit
    · exact noDigit (by decide) digit

/-- A text that needs no quotes has none. -/
theorem noQuote_of_needsQuotes {cs : List Char} (plain : needsQuotes cs = false) : '"' ∉ cs := by
  intro mem
  have all := List.any_eq_false.mp plain _ mem
  exact all (by decide)

theorem noQuote_text (q : ℚ) : '"' ∉ (Rational.text q).toList := by
  rw [Rational.toList_text]
  exact noQuote_of_needsQuotes (needsQuotes_rational q)

theorem csvCell_rational (q : ℚ) : csvCell (Rational.text q) = Rational.text q := by
  rw [csvCell, Rational.toList_text, needsQuotes_rational, if_neg Bool.false_ne_true]

/-- Cells without quotes, with commas between them. -/
theorem noQuote_intercalate {cells : List String} (each : ∀ cell ∈ cells, '"' ∉ cell.toList) :
    '"' ∉ (",".intercalate cells).toList := by
  intro mem
  rw [String.toList_intercalate] at mem
  rcases mem_intercalate mem with mem | ⟨_, here, mem⟩
  · exact absurd mem (by decide)
  · obtain ⟨cell, inside, rfl⟩ := List.mem_map.mp here
    exact each cell inside mem

/-- **A row of numbers** has no quotes. -/
theorem noQuote_rationals (qs : List ℚ) : '"' ∉ (csvRow (qs.map Rational.text)).toList := by
  have noEmpty (q : ℚ) : Rational.text q ≠ "" := by
    intro empty
    have chars := congrArg String.toList empty
    rw [Rational.toList_text] at chars
    exact Rational.chars_ne_nil q chars
  have nonempty : qs.map Rational.text ≠ [""] := by
    intro same
    have mem : "" ∈ qs.map Rational.text := same ▸ List.mem_singleton_self ""
    obtain ⟨q, -, empty⟩ := List.mem_map.mp mem
    exact noEmpty q empty
  have cells : (qs.map Rational.text).map csvCell = qs.map Rational.text := by
    rw [List.map_map]
    exact List.map_congr_left fun q _ => csvCell_rational q
  have row : csvRow (qs.map Rational.text) = ",".intercalate (qs.map Rational.text) ++ "\n" := by
    rw [csvRow, cells]
    exact nonempty
  rw [row, String.toList_append, List.mem_append, not_or]
  refine ⟨noQuote_intercalate ?_, by decide⟩
  intro cell mem
  obtain ⟨q, -, rfl⟩ := List.mem_map.mp mem
  exact noQuote_text q

/-- **A row of one cell** has no quotes or begins with one. -/
theorem csvRow_single (s : String) :
    '"' ∉ (csvRow [s]).toList ∨ ∃ rest, (csvRow [s]).toList = '"' :: rest := by
  by_cases empty : s = ""
  · subst empty
    exact .inr ⟨_, rfl⟩
  · have row : csvRow [s] = csvCell s ++ "\n" := by
      rw [csvRow]
      · simp
      · simpa using empty
    rw [row, csvCell, String.toList_append]
    cases quotes : needsQuotes s.toList with
    | true => exact .inr ⟨_, by rw [if_pos rfl, String.toList_ofList]; rfl⟩
    | false =>
      refine .inl ?_
      rw [if_neg Bool.false_ne_true, List.mem_append, not_or]
      exact ⟨noQuote_of_needsQuotes quotes, by decide⟩

/-- **A table** has no quotes or begins with one. -/
theorem csv_quotes (r : Result) : '"' ∉ r.csv.toList ∨ ∃ rest, r.csv.toList = '"' :: rest := by
  cases r with
  | scalar q => exact csvRow_single _
  | text s => exact csvRow_single _
  | vector v => exact .inl (noQuote_rationals v.entries)
  | matrix a =>
    refine .inl ?_
    rw [csv, Mat.texts, List.map_map, String.toList_join, List.mem_flatMap]
    rintro ⟨row, mem, quote⟩
    obtain ⟨qs, -, rfl⟩ := List.mem_map.mp mem
    exact noQuote_rationals qs quote

end Result

end ExactAlgebra
