import ExactAlgebra.Proofs.Cofactor.Adjugate
import ExactAlgebra.Proofs.Numbered.Cofactor

/-!
# The trace of an expansion

The steps of an expansion are recorded by two branches: a zero is passed over, any other entry is
multiplied by the expansion of its minor along first rows. Both record the same account: the entry,
its product with the cofactor that elimination gives, and the sum of the products so far. Told by
position, the terms along a line are therefore a function of the entries and the cofactors, and the
last sum is the determinant.

## Main statements

* `Grid.expand_eq_det` — the expansion of a minor is its determinant by elimination;
* `expansionTerm_eq` — what one step records, for both branches;
* `getElem?_expandAlong` — what a run records, position by position;
* `expansionTerms_eq` — the terms along a line of the grid;
* `Mat.expansion_accounts` — the recorded steps account for the determinant.

## Main definitions

* `accountedTerm` — what a step should record;
* `Line.place` — the place with a number in a line.
-/

namespace ExactAlgebra

variable {n : Nat}

/-! ## One step -/

/-- **The expansion along first rows is the determinant by elimination.** -/
theorem Grid.expand_eq_det (g : Grid n n) : g.expand = g.det :=
  g.expand_eq.trans g.det_eq.symm

/-- The cofactor that is multiplied with an entry is the one that elimination gives. -/
theorem Grid.sign_mul_expand_minor (g : Grid n n) (i j : Fin n) :
    checkerSign i.val j.val * (g.minor i j).expand = g.cofactor i j :=
  congrArg (checkerSign i.val j.val * ·) (expand_eq_det (n := n - 1) (g.minor i j))

theorem laplaceTerm_eq (g : Grid n n) (place : Fin n × Fin n) :
    laplaceTerm g place = g.entry place.1 place.2 * g.cofactor place.1 place.2 := by
  rw [laplaceTerm, g.sign_mul_expand_minor]

/-- **The account of a place**: its entry, the cofactor by elimination unless the entry is zero, their
product, and a sum up to this place. -/
def accountedTerm (g : Grid n n) (position : Nat) (place : Fin n × Fin n) (total : ℚ) :
    ExpansionTerm n where
  position := position
  row := place.1
  column := place.2
  entry := g.entry place.1 place.2
  cofactor := if g.entry place.1 place.2 = 0 then none else some (g.cofactor place.1 place.2)
  value := g.entry place.1 place.2 * g.cofactor place.1 place.2
  total := total

/-- **A step records the account of its place**, with one more product in the sum, whether the entry
is zero or not. -/
theorem expansionTerm_eq (g : Grid n n) (position : Nat) (i j : Fin n) (total : ℚ) :
    expansionTerm g position i j total =
      accountedTerm g position (i, j) (total + laplaceTerm g (i, j)) := by
  rw [laplaceTerm_eq, expansionTerm, accountedTerm, g.sign_mul_expand_minor]
  by_cases zero : g.entry i j = 0
  · simp [zero]
  · simp [zero]

/-! ## A run -/

/-- **A run records the accounts of its places**, one after another, each with the sum of the
products up to it. -/
theorem getElem?_expandAlong (g : Grid n n) (position : Nat) (total : ℚ)
    (places : List (Fin n × Fin n)) (k : Nat) :
    (expandAlong g position total places)[k]? =
      places[k]?.map fun place => accountedTerm g (position + k) place
        (total + ((places.take (k + 1)).map (laplaceTerm g)).sum) := by
  induction places generalizing position total k with
  | nil => rfl
  | cons place rest ih =>
    obtain ⟨i, j⟩ := place
    rw [expandAlong]
    cases k with
    | zero => simp [expansionTerm_eq]
    | succ k =>
      -- the sum that the first step leaves is where the others begin
      have start : (expansionTerm g position i j total).total = total + laplaceTerm g (i, j) :=
        expansionTerm_total g position i j total
      rw [List.getElem?_cons_succ, List.getElem?_cons_succ, ih, start, Nat.add_right_comm]
      simp only [List.take_succ_cons, List.map_cons, List.sum_cons, ← add_assoc]

/-- The place with a number in a line of the grid. -/
def Line.place (line : Line) (inside : line.index < n) (k : Fin n) : Fin n × Fin n :=
  if line.isRow then (⟨line.index, inside⟩, k) else (k, ⟨line.index, inside⟩)

theorem linePlaces_eq (line : Line) (inside : line.index < n) :
    linePlaces n line = List.ofFn (line.place inside) := by
  rw [linePlaces, dif_pos inside, List.ofFn_eq_map]
  rfl

theorem Numbered.placeIn_eq (line : Line) (inside : line.index < n) (k : Fin n) :
    placeIn line k = ((line.place inside k).1.val, (line.place inside k).2.val) := by
  rw [placeIn, Line.place]
  split <;> rfl

/-- The sum of the first numbers of a list that is given by position. -/
theorem sum_take_ofFn_succ (f : Fin n → ℚ) (k : Fin n) :
    ((List.ofFn f).take (k.val + 1)).sum = ∑ l ∈ Finset.Iic k, f l := by
  rw [List.sum_take_ofFn]
  refine Finset.sum_congr (Finset.ext fun l => ?_) fun _ _ => rfl
  rw [Finset.mem_filter_univ, Finset.mem_Iic, Fin.le_iff_val_le_val, Nat.lt_succ_iff]

/-- **The terms along a line of the grid** are the accounts of its places, each with the sum of the
products up to it. -/
theorem expansionTerms_eq (g : Grid n n) (line : Line) (inside : line.index < n) :
    expansionTerms g line = List.ofFn fun k => accountedTerm g k (line.place inside k)
      (∑ l ∈ Finset.Iic k, laplaceTerm g (line.place inside l)) := by
  refine List.ext_getElem? fun k => ?_
  rw [expansionTerms, getElem?_expandAlong, linePlaces_eq line inside, List.getElem?_ofFn,
    List.getElem?_ofFn]
  by_cases there : k < n
  · have sum := sum_take_ofFn_succ (fun l => laplaceTerm g (line.place inside l)) ⟨k, there⟩
    rw [dif_pos there, dif_pos there, Option.map_some, List.map_take, List.map_ofFn, zero_add,
      zero_add]
    exact congrArg (fun total => some (accountedTerm g k _ total)) sum
  · rw [dif_neg there, dif_neg there]
    rfl

/-! ## The journal -/

theorem ExpansionTerm.kind_step (g : Grid n n) (line : Line) (t : ExpansionTerm n) :
    (t.step g line).kind = .minor := by
  rw [step]
  split <;> rfl

theorem ExpansionTerm.detail_step (g : Grid n n) (line : Line) (t : ExpansionTerm n) :
    (t.step g line).detail =
      .term line.index t.position t.entry t.cofactor t.value t.total := by
  rw [step]
  split <;> rename_i none <;> rw [none]

/-- A step with a minor shows the sum so far. -/
theorem ExpansionTerm.total?_step (g : Grid n n) (line : Line) (t : ExpansionTerm n) :
    (t.step g line).total? = some t.total := by
  rw [Step.total?, detail_step]

/-- **The steps with minors** are those of the terms, one for each place of the line. -/
theorem filter_expansionSteps (strategy : Strategy) (g : Grid n n) (large : 3 ≤ n) :
    (expansionSteps strategy g).filter (·.kind = .minor) =
      (expansionTerms g (strategy.line ⟨n, n, g⟩)).map
        (·.step g (strategy.line ⟨n, n, g⟩)) := by
  have named : ∀ line : Line, (line.step ⟨n, n, g⟩).kind ≠ .minor := by
    intro line
    cases line <;> exact StepKind.noConfusion
  have small : ¬ n ≤ 2 := by omega
  simp [expansionSteps, small, Step.start, named, determinantStep, ExpansionTerm.kind_step]

/-- **The last sum is the determinant.** -/
theorem getLast?_expansionTerms (g : Grid n n) (line : Line) (inside : line.index < n) :
    (expansionTerms g line).getLast?.map (·.total) = some g.det := by
  have value := expansionTotal_expansionTerms g inside
  rw [expansionTotal, ← g.det_eq] at value
  cases last : (expansionTerms g line).getLast? with
  | none =>
    have empty := List.getLast?_eq_none_iff.mp last
    rw [expansionTerms_eq g line inside, List.ofFn_eq_nil_iff] at empty
    omega
  | some term =>
    rw [last] at value
    exact congrArg some value

end ExactAlgebra
