import ExactAlgebra.Proofs.Cofactor.Expansion
import ExactAlgebra.Proofs.Numbered.Elimination

/-!
# Cofactors ask for what is there

An expansion along a line of a square matrix asks for the places of that line and for their minors,
which are there if the line is; and the line that a strategy chooses is one of the matrix, from
three rows on. The cofactors are written to places of a matrix of the same size.

## Main statements

* `Numbered.expand_eq`, `Numbered.sparsestLine_eq`, `Numbered.foldlM_expansionStep` — the parts of
  an expansion;
* `Numbered.expansion_eq`, `Numbered.cofactors_eq`, `Numbered.adjugate_eq`, `Numbered.inverse_eq` —
  the algorithms.
-/

namespace ExactAlgebra.Numbered

variable {m n : Nat}

/-! ## Expansions -/

/-- **The expansion along first rows** does not leave the matrix, at any depth. -/
theorem expand_eq : ∀ {n : Nat} (g : Grid n n), expand n ⟨n, n, g⟩ = .ok g.expand
  | 0, _ => rfl
  | 1, g => Mat.get_val g 0 0
  | 2, g => by
    obtain ⟨a, b, c, d⟩ := Mat.get_two g
    rw [expand, a, bind_ok, d, bind_ok, b, bind_ok, c]
    rfl
  | n + 3, g => by
    have unfolded : g.expand = (List.finRange (n + 3)).foldl
        (fun total j =>
          if g.entry 0 j = 0 then total
          else total + checkerSign 0 j.val * g.entry 0 j * (g.minor 0 j).expand)
        0 := rfl
    rw [expand, unfolded, range_eq]
    refine foldlM_map_ok (fun total => total) Fin.val (fun j _ total => ?_) 0
    show (Mat.get ⟨n + 3, n + 3, g⟩ (0 : Fin (n + 3)).val j.val >>= _) = _
    rw [Mat.get_val, bind_ok]
    split
    · rfl
    · show (Mat.minor ⟨n + 3, n + 3, g⟩ (0 : Fin (n + 3)).val j.val >>= _) = _
      have inner : expand (n + 2) ⟨n + 2, n + 2, g.minor 0 j⟩ = .ok (g.minor 0 j).expand :=
        expand_eq (n := n + 2) (g.minor 0 j)
      rw [Mat.minor_val, bind_ok]
      show (expand (n + 2) ⟨n + 2, n + 2, g.minor 0 j⟩ >>= _) = _
      rw [inner]
      rfl

/-- **The zeros of the lines** are counted line by line. -/
theorem lineZeros_eq (a : Mat) : lineZeros a = .ok a.lineZeros := by
  obtain ⟨m, n, g⟩ := a
  have rows : (List.range m).mapM (fun (i : Nat) => do
      return (Line.row i, zeroCount (← Mat.row ⟨m, n, g⟩ i))) =
        .ok ((List.finRange m).map fun i => (Line.row i.val, zeroCount (g.row i).toList)) := by
    rw [range_eq]
    refine mapM_name_ok Fin.val fun i _ => ?_
    rw [Mat.row_val]
    rfl
  have columns : (List.range n).mapM (fun (j : Nat) => do
      return (Line.column j, zeroCount (← Mat.column ⟨m, n, g⟩ j))) =
        .ok ((List.finRange n).map fun j => (Line.column j.val, zeroCount (g.column j).toList)) := by
    rw [range_eq]
    refine mapM_name_ok Fin.val fun j _ => ?_
    rw [Mat.column_val]
    rfl
  rw [lineZeros, rows, bind_ok, columns, bind_ok, pure_eq_ok]
  congr 2
  · apply List.ext_getElem <;> simp [Mat.toLists, Grid.row]
  · apply List.ext_getElem <;> simp [Mat.columns]

theorem sparsestLine_eq (a : Mat) : sparsestLine a = .ok a.sparsestLine := by
  rw [sparsestLine, lineZeros_eq, bind_ok, Mat.sparsestLine]
  cases a.lineZeros <;> rfl

theorem chosenLine_eq (strategy : Strategy) (a : Mat) :
    chosenLine strategy a = .ok (strategy.line a) := by
  cases strategy with
  | firstRow => rfl
  | sparsest => exact sparsestLine_eq a

/-- **One more term**, at a place that is there. -/
theorem expansionStep_eq (g : Grid n n) (line : Line) (total : ℚ) (before : Option Journal) {k : Nat}
    {i j : Fin n} (place : placeIn line k = (i.val, j.val)) :
    expansionStep ⟨n, n, g⟩ line (total, before) k =
      .ok ((expansionTerm g k i j total).total,
        noted before ((expansionTerm g k i j total).step g line)) := by
  rw [expansionStep, place]
  show (Mat.get ⟨n, n, g⟩ i.val j.val >>= _) = _
  rw [Mat.get_val, bind_ok]
  by_cases zero : g.entry i j = 0
  · simp only [expansionTerm, zero, if_true]
    rfl
  · rw [if_neg zero, Mat.minor_val, bind_ok]
    show (expand (n - 1) ⟨n - 1, n - 1, g.minor i j⟩ >>= _) = _
    rw [expand_eq (g.minor i j)]
    simp only [expansionTerm, zero, if_false]
    rfl

/-- The last of some running totals. -/
def lastTotal (total : ℚ) (terms : List (ExpansionTerm n)) : ℚ :=
  (terms.getLast?.map (·.total)).getD total

theorem lastTotal_cons (total : ℚ) (term : ExpansionTerm n) (terms : List (ExpansionTerm n)) :
    lastTotal total (term :: terms) = lastTotal term.total terms := by
  rw [lastTotal, lastTotal, List.getLast?_cons]
  cases terms.getLast? <;> rfl

/-- **The terms of an expansion** along places that are there, one after another. -/
theorem foldlM_expansionStep (g : Grid n n) (line : Line) (position : Nat) (total : ℚ)
    (before : Option Journal) (places : List (Fin n × Fin n))
    (numbers : ∀ k (inside : k < places.length),
      placeIn line (position + k) = (places[k].1.val, places[k].2.val)) :
    (List.range' position places.length).foldlM (expansionStep ⟨n, n, g⟩ line) (total, before) =
      .ok (lastTotal total (expandAlong g position total places),
        before.map (· ++ (expandAlong g position total places).map (·.step g line))) := by
  induction places generalizing position total before with
  | nil => cases before <;> simp [expandAlong, lastTotal, pure_eq_ok]
  | cons place rest ih =>
    obtain ⟨i, j⟩ := place
    have here : placeIn line position = (i.val, j.val) := numbers 0 (Nat.succ_pos _)
    have there : ∀ k (inside : k < rest.length),
        placeIn line (position + 1 + k) = (rest[k].1.val, rest[k].2.val) := by
      intro k inside
      rw [Nat.add_right_comm]
      exact numbers (k + 1) (Nat.succ_lt_succ inside)
    rw [List.length_cons, List.range'_succ, List.foldlM_cons,
      expansionStep_eq g line total before here, bind_ok, ih (position + 1) _ _ there, expandAlong,
      lastTotal_cons]
    cases before <;> simp [noted]

/-- The places of a line that is there. -/
theorem placeIn_linePlaces {line : Line} (inside : line.index < n) (k : Nat)
    (there : k < (linePlaces n line).length) :
    placeIn line k = ((linePlaces n line)[k].1.val, (linePlaces n line)[k].2.val) := by
  simp only [linePlaces, dif_pos inside, List.getElem_map, List.getElem_finRange, placeIn]
  split <;> rfl

theorem length_linePlaces {line : Line} (inside : line.index < n) :
    (linePlaces n line).length = n := by
  rw [linePlaces, dif_pos inside, List.length_map, List.length_finRange]

/-- **The determinant by expansion**, with its journal. -/
theorem expansion_eq (strategy : String) (g : Grid n n) (before : Option Journal) :
    expansion strategy ⟨n, n, g⟩ before =
      recorded before (Mat.expand strategy ⟨n, n, g⟩)
        (Operation.expansion.journal strategy ⟨n, n, g⟩) := by
  rw [expansion, Mat.checkSquare_self, bind_ok, Mat.expand, Operation.journal,
    Mat.squareGrid_square, bind_ok, bind_ok]
  cases Strategy.ofName strategy with
  | error e => rfl
  | ok strategy =>
    rw [bind_ok, bind_ok]
    show _ = Except.ok (g.expandBy strategy, before.map (· ++ expansionSteps strategy g))
    by_cases small : n ≤ 2
    · have value : g.expandBy strategy = g.expand := if_pos small
      rw [if_pos small, expand_eq, bind_ok, expansionSteps, if_pos small, value]
      cases before <;> simp [noted, pure_eq_ok]
    · have inside := strategy.index_line_lt g (by omega)
      have value : g.expandBy strategy = lastTotal 0 (expansionTerms g (strategy.line ⟨n, n, g⟩)) :=
        if_neg small
      have terms (noted : Option Journal) :=
        foldlM_expansionStep g (strategy.line ⟨n, n, g⟩) 0 0 noted
          (linePlaces n (strategy.line ⟨n, n, g⟩)) fun k there => by
            rw [Nat.zero_add]
            exact placeIn_linePlaces inside k there
      rw [length_linePlaces inside, ← List.range_eq_range'] at terms
      rw [if_neg small, chosenLine_eq, bind_ok]
      show (List.foldlM _ _ (List.range n) >>= _) = _
      rw [terms, bind_ok, value, expansionSteps, if_neg small, value]
      cases before <;> simp [noted, pure_eq_ok, expansionTerms]

/-! ## Cofactors -/

theorem cofactor_eq (g : Grid n n) (i j : Fin n) :
    cofactor ⟨n, n, g⟩ i.val j.val = .ok (g.cofactor i j) := by
  rw [cofactor, Mat.checkSquare_self, bind_ok, Mat.minor_val, bind_ok]
  show (det ⟨n - 1, n - 1, g.minor i j⟩ none >>= _) = _
  rw [det_eq]
  rfl

theorem cofactors_eq (g : Grid n n) (before : Option Journal) :
    cofactors ⟨n, n, g⟩ before = .ok (⟨n, n, g.cofactors⟩, before.map (· ++ cofactorSteps g)) := by
  have built : build n n (places n n) (cofactor ⟨n, n, g⟩) = .ok ⟨n, n, g.cofactors⟩ :=
    build_ok _ (places_eq n n) mem_product_finRange (cofactor_eq g)
  rw [cofactors, Mat.checkSquare_self, bind_ok]
  show (build n n (places n n) _ >>= _) = _
  rw [built]
  cases before <;> simp [noted, cofactorSteps, bind_ok, pure_eq_ok]

theorem adjugate_eq (g : Grid n n) (before : Option Journal) :
    adjugate ⟨n, n, g⟩ before = .ok (⟨n, n, g.adjugate⟩, before.map (· ++ adjugateSteps g)) := by
  rw [adjugate, cofactors_eq, bind_ok]
  show (transpose ⟨n, n, g.cofactors⟩ >>= _) = _
  rw [transpose_ok, bind_ok]
  cases before <;> simp [noted, adjugateSteps, pure_eq_ok, Grid.adjugate]

theorem inverse_eq (g : Grid n n) (strategy : String) (before : Option Journal) :
    inverse ⟨n, n, g⟩ before =
      recorded before (Mat.inverse ⟨n, n, g⟩) (Operation.inverse.journal strategy ⟨n, n, g⟩) := by
  rw [inverse, Mat.checkSquare_self, bind_ok, det_eq, bind_ok, Mat.inverse, Operation.journal,
    Mat.squareGrid_square, bind_ok, bind_ok, Grid.inverse?]
  dsimp only
  by_cases zero : g.det = 0
  · rw [if_pos zero, if_pos zero]
    rfl
  · rw [if_neg zero, if_neg zero, if_neg zero, adjugate_eq]
    cases before <;> simp [recorded, noted, inverseSteps, Mat.scale, bind_ok, pure_eq_ok]

end ExactAlgebra.Numbered
