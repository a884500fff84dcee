import ExactAlgebra.Error
import Mathlib.Data.List.Perm.Basic

/-!
# Runs that end well

A computation that can fail and did not has come through each of its steps. These are the steps, for
the ways in which computations are put together.

## Main statements

* `ok_of_bind`, `ok_of_map`, `error_of_bind`, `error_of_map`, `bind_ok_eq_error` — one computation
  after another;
* `forall₂_of_mapM`, `error_of_mapM` — one computation for each member of a list;
* `mapM_map_ok` — what was written member by member, and is read so;
* `mapM_perm` — the members of a list in another order.

## Main definitions

* `SameOutcome` — two computations that both fail, or both yield the same.
-/

namespace ExactAlgebra

variable {α β : Type}

theorem bind_ok (a : α) (f : α → Except Error β) : ((.ok a : Except Error α) >>= f) = f a :=
  rfl

theorem bind_error (e : Error) (f : α → Except Error β) :
    ((.error e : Except Error α) >>= f) = .error e :=
  rfl

theorem pure_eq_ok (a : α) : (pure a : Except Error α) = .ok a :=
  rfl

/-- A run ends well, or it fails. -/
theorem exists_ok_iff {x : Except Error α} : (∃ a, x = .ok a) ↔ ¬ ∃ e, x = .error e := by
  cases x <;> simp

/-- A run that ends well has come through its first step. -/
theorem ok_of_bind {x : Except Error α} {f : α → Except Error β} {b : β}
    (run : x >>= f = .ok b) : ∃ a, x = .ok a ∧ f a = .ok b := by
  cases x with
  | error e => cases run
  | ok a => exact ⟨a, rfl, run⟩

/-- A run that fails does so in its first step, or behind it. -/
theorem error_of_bind {x : Except Error α} {f : α → Except Error β} {e : Error}
    (run : x >>= f = .error e) : x = .error e ∨ ∃ a, x = .ok a ∧ f a = .error e := by
  cases x with
  | error cause => exact .inl (congrArg Except.error (Except.error.inj run))
  | ok a => exact .inr ⟨a, rfl, run⟩

/-- What cannot fail itself fails with what it is made from. -/
theorem bind_ok_eq_error {x : Except Error α} {f : α → β} {e : Error} :
    (x >>= fun a => .ok (f a)) = .error e ↔ x = .error e := by
  cases x <;> simp [bind, Except.bind]

/-- A result that was made from another one. -/
theorem ok_of_map {x : Except Error α} {f : α → β} {b : β} (run : x.map f = .ok b) :
    ∃ a, x = .ok a ∧ f a = b := by
  cases x with
  | error e => cases run
  | ok a => exact ⟨a, rfl, Except.ok.inj run⟩

/-- A result that could not be made, because there was none to make it from. -/
theorem error_of_map {x : Except Error α} {f : α → β} {e : Error} (run : x.map f = .error e) :
    x = .error e := by
  cases x with
  | error cause => exact congrArg Except.error (Except.error.inj run)
  | ok a => cases run

theorem map_bind {γ : Type} (x : Except Error α) (f : α → Except Error β) (g : β → γ) :
    (x >>= f).map g = x >>= fun a => (f a).map g := by
  cases x <;> rfl

/-- **Every member of the list has been computed.** -/
theorem forall₂_of_mapM {f : α → Except Error β} {xs : List α} {ys : List β}
    (run : xs.mapM f = .ok ys) : List.Forall₂ (fun x y => f x = .ok y) xs ys := by
  induction xs generalizing ys with
  | nil =>
    cases run
    exact .nil
  | cons x rest ih =>
    rw [List.mapM_cons] at run
    obtain ⟨y, here, run⟩ := ok_of_bind run
    obtain ⟨more, there, done⟩ := ok_of_bind run
    cases done
    exact .cons here (ih there)

/-- **Some member of the list could not be computed.** -/
theorem error_of_mapM {f : α → Except Error β} {xs : List α} {e : Error}
    (run : xs.mapM f = .error e) : ∃ x ∈ xs, f x = .error e := by
  induction xs with
  | nil => cases run
  | cons x rest ih =>
    rw [List.mapM_cons] at run
    obtain here | ⟨y, -, run⟩ := error_of_bind run
    · exact ⟨x, List.mem_cons_self, here⟩
    obtain there | ⟨ys, -, run⟩ := error_of_bind run
    · obtain ⟨member, mem, failed⟩ := ih there
      exact ⟨member, List.mem_cons_of_mem _ mem, failed⟩
    · cases run

/-- **A list whose members are read back** is read back itself. -/
theorem mapM_map_ok {read : β → Except Error α} {write : α → β}
    (back : ∀ x, read (write x) = .ok x) (xs : List α) : (xs.map write).mapM read = .ok xs := by
  induction xs with
  | nil => rfl
  | cons x rest ih =>
    rw [List.map_cons, List.mapM_cons, back, ih]
    rfl

theorem length_eq_of_mapM {f : α → Except Error β} {xs : List α} {ys : List β}
    (run : xs.mapM f = .ok ys) : xs.length = ys.length :=
  (forall₂_of_mapM run).length_eq

theorem mapM_of_forall₂ {f : α → Except Error β} {xs : List α} {ys : List β}
    (each : List.Forall₂ (fun x y => f x = .ok y) xs ys) : xs.mapM f = .ok ys := by
  induction each with
  | nil => rfl
  | cons here _ ih =>
    rw [List.mapM_cons, here, ih]
    rfl

/-- Each member of the list has a result. -/
theorem exists_ok_of_mapM {f : α → Except Error β} {xs : List α} {ys : List β}
    (run : xs.mapM f = .ok ys) {x : α} (mem : x ∈ xs) : ∃ y, f x = .ok y := by
  induction forall₂_of_mapM run with
  | nil => exact absurd mem List.not_mem_nil
  | cons here there ih =>
    rcases List.mem_cons.mp mem with rfl | mem
    · exact ⟨_, here⟩
    · exact ih (mapM_of_forall₂ there) mem

/-- **Lists of lists** are computed member by member. -/
theorem mapM_flatMap_ok {γ : Type} {f : β → Except Error γ} {parts : α → List β} {xs : List α}
    {yss : List (List γ)} (run : xs.mapM (fun x => (parts x).mapM f) = .ok yss) :
    (xs.flatMap parts).mapM f = .ok yss.flatten := by
  induction xs generalizing yss with
  | nil =>
    cases run
    rfl
  | cons x rest ih =>
    rw [List.mapM_cons] at run
    obtain ⟨ys, here, run⟩ := ok_of_bind run
    obtain ⟨more, there, done⟩ := ok_of_bind run
    cases done
    rw [List.flatMap_cons, List.mapM_append, here, ih there]
    rfl

/-- **Members in another order** have the same results in another order. -/
theorem mapM_perm {f : α → Except Error β} {xs xs' : List α} {ys : List β} (perm : xs.Perm xs')
    (run : xs.mapM f = .ok ys) : ∃ ys', xs'.mapM f = .ok ys' ∧ ys.Perm ys' := by
  obtain ⟨ys', each, same⟩ := List.perm_comp_forall₂ perm.symm (forall₂_of_mapM run)
  exact ⟨ys', mapM_of_forall₂ each, same.symm⟩

/-! ## Two computations -/

/-- **The same outcome**: both computations yield the same, or both fail. -/
def SameOutcome (x y : Except Error α) : Prop :=
  (∃ a, x = .ok a ∧ y = .ok a) ∨ (∃ e, x = .error e) ∧ ∃ e, y = .error e

theorem SameOutcome.refl (x : Except Error α) : SameOutcome x x := by
  cases x with
  | error e => exact .inr ⟨⟨e, rfl⟩, e, rfl⟩
  | ok a => exact .inl ⟨a, rfl, rfl⟩

theorem sameOutcome_of_errors {x y : Except Error α} (left : ∃ e, x = .error e)
    (right : ∃ e, y = .error e) : SameOutcome x y :=
  .inr ⟨left, right⟩

theorem SameOutcome.isOk_eq {x y : Except Error α} (same : SameOutcome x y) : x.isOk = y.isOk := by
  obtain ⟨a, rfl, rfl⟩ | ⟨⟨e, rfl⟩, e', rfl⟩ := same <;> rfl

/-- Computations that succeed together and cannot differ have the same outcome. -/
theorem sameOutcome_of_iff {x y : Except Error α} (together : (∃ a, x = .ok a) ↔ ∃ b, y = .ok b)
    (agree : ∀ a b, x = .ok a → y = .ok b → a = b) : SameOutcome x y := by
  cases x with
  | ok a =>
    obtain ⟨b, rfl⟩ := together.mp ⟨a, rfl⟩
    exact .inl ⟨a, rfl, congrArg _ (agree a b rfl rfl).symm⟩
  | error e =>
    cases y with
    | ok b =>
      obtain ⟨a, failed⟩ := together.mpr ⟨b, rfl⟩
      cases failed
    | error e' => exact .inr ⟨⟨e, rfl⟩, e', rfl⟩

end ExactAlgebra
