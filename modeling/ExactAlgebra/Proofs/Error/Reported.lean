import ExactAlgebra.Proofs.Error.Run

/-!
# Faults that are reported

Some causes of failure are worded for the person who typed the input, and the others point at the
program or at its surroundings. A computation that fails only for causes of the first kind is put
together from computations that do.

## Main statements

* `Reported.bind`, `Reported.map`, `Reported.ite` — one computation after another;
* `Reported.mapM`, `Reported.foldlM` — one computation for each member of a list.

## Main definitions

* `Reported` — a computation that fails only for causes of the first kind.
-/

namespace ExactAlgebra

variable {α β : Type}

/-- **A computation that fails only for what is reported** to the person who typed the input. -/
def Reported (x : Except Error α) : Prop :=
  ∀ e, x = .error e → e.isReported = true

namespace Reported

theorem ok (a : α) : Reported (.ok a) := by
  intro e failed
  cases failed

theorem pure (a : α) : Reported (Pure.pure a) :=
  ok a

theorem of_eq_ok {x : Except Error α} {a : α} (run : x = .ok a) : Reported x :=
  run ▸ ok a

theorem error {e : Error} (reported : e.isReported = true) : Reported (.error e : Except Error α) := by
  intro e' failed
  cases failed
  exact reported

/-- **One computation after another.** -/
theorem bind {x : Except Error α} {f : α → Except Error β} (first : Reported x)
    (next : ∀ a, Reported (f a)) : Reported (x >>= f) := by
  cases x with
  | error e => exact error (first e rfl)
  | ok a => exact next a

theorem map {x : Except Error α} (first : Reported x) (f : α → β) : Reported (x.map f) := by
  cases x with
  | error e => exact error (first e rfl)
  | ok a => exact ok (f a)

theorem ite {p : Prop} [Decidable p] {x y : Except Error α} (yes : p → Reported x)
    (no : ¬ p → Reported y) : Reported (if p then x else y) := by
  split
  · exact yes ‹_›
  · exact no ‹_›

/-- **One computation for each member of a list.** -/
theorem mapM {f : α → Except Error β} {xs : List α} (each : ∀ x ∈ xs, Reported (f x)) :
    Reported (xs.mapM f) := by
  induction xs with
  | nil => exact ok []
  | cons x rest ih =>
    obtain ⟨here, there⟩ := List.forall_mem_cons.mp each
    rw [List.mapM_cons]
    exact here.bind fun _ => (ih there).bind fun _ => pure _

theorem foldlM {f : β → α → Except Error β} (step : ∀ b x, Reported (f b x)) (xs : List α) (b : β) :
    Reported (xs.foldlM f b) := by
  induction xs generalizing b with
  | nil => exact pure b
  | cons x rest ih =>
    rw [List.foldlM_cons]
    exact (step b x).bind ih

end Reported

end ExactAlgebra
