import ExactAlgebra.Command.Session
import ExactAlgebra.Proofs.Numbered.Operation
import ExactAlgebra.Proofs.Store.Session

/-!
# Commands change all or nothing

In every command, what can fail comes before the one change of the workspace: the journal of an
operation is complete before its result is kept, and an id is found before its record is changed.
So a command is carried out as a whole, and a run ends as it is computed.

## Main statements

* `Operation.exists_journal` — where there is a result there is a journal;
* `Command.run_steps` — a command is carried out as a whole;
* `Command.ended_dialogue` — a run step by step.
-/

namespace ExactAlgebra

open Text

/-! ## Steps -/

namespace Session

variable {α : Type} (w : Workspace)

theorem run_attempt (x : Except Error α) : run (attempt x) w = (x, w) :=
  rfl

theorem run_save_result (name : String) (r : Result) :
    run (save name (.result r)) w = w.whole ((w.save name r).map fun next => ((), next)) := by
  rw [run_save]
  cases named : checkName name with
  | error e =>
    have failed : w.save name r = .error e := by
      rw [Workspace.save, named]
      rfl
    rw [failed]
    rfl
  | ok checked =>
    have meant : (Storable.result r).toResult = .ok r := rfl
    rw [bind_ok, meant, bind_ok]
    cases w.save name r <;> rfl

theorem run_relabeled (words : Except Error α → Except Error α) (steps : Session α) :
    run (relabeled words steps) w = (words (run steps w).1, (run steps w).2) :=
  rfl

end Session

/-! ## Operations -/

/-- **Where there is a result there is a journal.** -/
theorem Operation.exists_journal {op : Operation} {strategy : String} {a : Mat} {outcome : Outcome}
    (done : op.result strategy a = .ok outcome) :
    ∃ journal, op.journal strategy a = .ok journal := by
  cases op with
  | echelon => exact ⟨_, rfl⟩
  | reducedEchelon => exact ⟨_, rfl⟩
  | rank => exact ⟨_, rfl⟩
  | transpose => exact ⟨_, rfl⟩
  | determinant =>
    obtain ⟨q, done, -⟩ := ok_of_map done
    obtain ⟨g, square, -⟩ := ok_of_map done
    exact ⟨_, by rw [journal, square]; rfl⟩
  | expansion =>
    obtain ⟨q, done, -⟩ := ok_of_map done
    obtain ⟨g, square, done⟩ := ok_of_bind done
    obtain ⟨named, found, -⟩ := ok_of_bind done
    exact ⟨_, by rw [journal, square, bind_ok, found]; rfl⟩
  | inverse =>
    obtain ⟨b, done, -⟩ := ok_of_map done
    obtain ⟨g, square, done⟩ := ok_of_bind done
    have regular : g.det ≠ 0 := by
      intro singular
      rw [Grid.inverse?, if_pos singular] at done
      cases done
    exact ⟨_, by rw [journal, square, bind_ok, if_neg regular]; rfl⟩
  | inverseByElimination =>
    obtain ⟨b, done, -⟩ := ok_of_map done
    obtain ⟨g, square, done⟩ := ok_of_bind done
    obtain ⟨r, inverted, -⟩ := ok_of_bind done
    exact ⟨_, by rw [journal, square, bind_ok, eliminationInverseSteps, inverted]; rfl⟩
  | cofactors =>
    obtain ⟨b, done, -⟩ := ok_of_map done
    obtain ⟨g, square, -⟩ := ok_of_map done
    exact ⟨_, by rw [journal, square]; rfl⟩
  | adjugate =>
    obtain ⟨b, done, -⟩ := ok_of_map done
    obtain ⟨g, square, -⟩ := ok_of_map done
    exact ⟨_, by rw [journal, square]; rfl⟩

namespace Command

variable (w : Workspace) (settings : Settings)

/-- A computation changes nothing. -/
theorem run_computation (x : Except Error String) :
    Session.run (Session.attempt x) w = w.whole (x >>= fun answer => pure (answer, w)) := by
  cases x <;> rfl

theorem run_matrixSteps (op : Operation) (entries : Operand) (steps : Bool)
    (strategy name : Option String) :
    Session.run (matrixSteps settings op entries steps strategy name) w =
      w.whole (do matrixAnswer w settings op (← entries.matrix) steps strategy name) := by
  rw [matrixSteps]
  cases entries.matrix with
  | error e => rfl
  | ok a =>
    rw [Session.run_ok, bind_ok, matrixAnswer]
    dsimp only
    rw [Numbered.perform_eq]
    generalize strategy.getD (settings.value "expansion_strategy").plain = strategy
    cases done : op.result strategy a with
    | error e => rfl
    | ok outcome =>
      obtain ⟨journal, noted⟩ := op.exists_journal done
      rw [recorded, noted]
      simp only [bind_ok, pure_eq_ok, Session.run_ok]
      -- with a journal or without, with a name or without
      generalize (showsSteps steps settings && op.isJournaled) = shown
      cases name with
      | none => cases shown <;> rfl
      | some name =>
        have saved := Session.run_save_result w name (storable outcome)
        cases shown
        all_goals
          show Session.run (Session.save name (.result (storable outcome)) >>= _) w =
            w.whole (w.save name (storable outcome) >>= _)
          rw [Session.run_bind, saved]
          cases w.save name (storable outcome) <;> rfl

/-- An id is looked up, and a failure is put in other words. -/
theorem run_findEntry (start : String) :
    Session.run (Session.relabeled (orNoHistoryEntry start) (Session.findRecord start)) w =
      w.whole ((orNoHistoryEntry start (w.findRecord start)).map fun id => (id, w)) := by
  rw [Session.run_relabeled, Session.run_findRecord]
  cases w.findRecord start with
  | ok id => rfl
  | error e =>
    show (orNoHistoryEntry start (.error e), w) = _
    unfold orNoHistoryEntry
    dsimp only
    split <;> rfl

/-- A table is written, and a failure is put in other words. -/
theorem run_exportNamed (name path : String) :
    Session.run (Session.relabeled (orNothingSaved name) (Session.exportTable name path)) w =
      w.whole ((orNothingSaved name (w.exportTable name path)).map fun next => ((), next)) := by
  rw [Session.run_relabeled, Session.run_exportTable]
  cases w.exportTable name path with
  | ok next => rfl
  | error e =>
    show (orNothingSaved name (.error e), w) = _
    by_cases stored : ∃ key, e = .nothingStored key
    · obtain ⟨key, rfl⟩ := stored
      rfl
    · have same {α : Type} : orNothingSaved name (.error e : Except Error α) = .error e := by
        unfold orNothingSaved
        split
        · rename_i key given
          exact absurd ⟨key, Except.error.inj given⟩ stored
        · rfl
      rw [same, same]
      rfl

theorem run_historySteps (action : HistoryAction) :
    Session.run (historySteps action) w = w.whole (historyAnswer w action) := by
  cases action with
  | list =>
    rw [historySteps, Session.run_bind, Session.run_showHistory, historyAnswer]
    cases w.recordsByPin with
    | error e => rfl
    | ok records =>
      cases records with
      | nil => rfl
      | cons record rest =>
        show Session.run (Session.attempt ((record :: rest).mapM historyLine) >>= _) w =
          w.whole ((record :: rest).mapM historyLine >>= _)
        cases (record :: rest).mapM historyLine <;> rfl
  | pin start =>
    rw [historySteps, Session.run_bind, run_findEntry, historyAnswer]
    cases orNoHistoryEntry start (w.findRecord start) with
    | error e => rfl
    | ok id =>
      show Session.run (Session.togglePin id >>= _) w = w.whole (w.togglePin id >>= _)
      rw [Session.run_bind, Session.run_togglePin]
      cases w.togglePin id <;> rfl
  | delete start =>
    rw [historySteps, Session.run_bind, run_findEntry, historyAnswer]
    cases orNoHistoryEntry start (w.findRecord start) with
    | error e => rfl
    | ok id =>
      show Session.run (Session.deleteRecord id >>= _) w = w.whole (w.deleteRecord id >>= _)
      rw [Session.run_bind, Session.run_deleteRecord]
      cases w.deleteRecord id <;> rfl
  | clear => rfl

theorem run_exportSteps (path : String) (table : Option String) :
    Session.run (exportSteps path table) w = w.whole (exportAnswer w path table) := by
  cases table with
  | none =>
    rw [exportSteps, Session.run_bind, Session.run_exportAll, exportAnswer]
    cases w.exportAll path <;> rfl
  | some name =>
    rw [exportSteps, Session.run_bind, run_exportNamed, exportAnswer]
    cases orNothingSaved name (w.exportTable name path) <;> rfl

/-- **A command is carried out as a whole**, or it changes nothing. -/
theorem run_steps (c : Command) :
    Session.run (c.steps settings) w = w.whole (c.answer w settings) := by
  cases c with
  | simplify expression =>
    rw [steps, answer, run_computation]
    simp only [bind_assoc]
  | factor expression =>
    rw [steps, answer, run_computation]
    simp only [bind_assoc]
  | solve equation shown =>
    rw [steps, answer, run_computation]
    simp only [bind_assoc]
  | matrix op entries shown strategy name =>
    exact run_matrixSteps w settings op entries shown strategy name
  | system coefficients right => rw [steps, answer, run_computation]
  | eigenvalues a =>
    rw [steps, answer, run_computation]
    simp only [bind_assoc]
  | compare first second =>
    rw [steps, answer, run_computation]
    simp only [bind_assoc]
  | display name =>
    rw [steps, answer]
    cases name.text with
    | error e => rfl
    | ok name =>
      show Session.run (Session.relabeled (orNothingSaved name) (do
        Session.attempt ((← get).load name)) >>= _) w =
          w.whole (orNothingSaved name (w.load name) >>= _)
      rw [Session.run_bind, Session.run_relabeled, Session.run_get, Session.run_attempt]
      dsimp only
      cases orNothingSaved name (w.load name) <;> rfl
  | names => rfl
  | history action => exact run_historySteps w action
  | exportResults path table =>
    rw [steps, answer]
    cases path.text with
    | error e => rfl
    | ok path => exact run_exportSteps w path table
  | importResults path =>
    rw [steps, answer]
    cases path.text with
    | error e => rfl
    | ok path =>
      rw [Session.run_ok, Session.run_bind, Session.run_importAll]
      dsimp only [bind, Except.bind]
      cases w.importAll path <;> rfl

end Command

/-! ## Runs -/

namespace Dialogue

variable {α β : Type} (t : Terminal)

theorem run_pure (a : α) : run (pure a) t = (.ok a, t) :=
  rfl

/-- What comes after some steps is carried out unless they fail. -/
theorem run_bind (steps : Dialogue α) (f : α → Dialogue β) :
    run (steps >>= f) t = match run steps t with
      | (.ok a, next) => run (f a) next
      | (.error e, next) => (.error e, next) := by
  change (ExceptT.bindCont f (run steps t).1 : StateM Terminal _) (run steps t).2 = _
  rcases run steps t with ⟨_ | a, next⟩ <;> rfl

theorem run_get (f : Terminal → Dialogue β) : run (get >>= f) t = run (f t) t :=
  rfl

theorem run_onWorkspace (steps : Session α) : run (onWorkspace steps) t =
    ((Session.run steps t.workspace).1,
      { t with workspace := (Session.run steps t.workspace).2 }) :=
  rfl

theorem run_tried (steps : Dialogue α) :
    run (tried steps) t = (.ok (run steps t).1, (run steps t).2) :=
  rfl

theorem run_say (line : String) :
    run (say line) t = (.ok (), { t with output := t.output ++ line ++ "\n" }) :=
  rfl

theorem run_complain (line : String) :
    run (complain line) t = (.ok (), { t with errors := t.errors ++ line ++ "\n" }) :=
  rfl

end Dialogue

namespace Command

variable (w : Workspace) (stamp : Stamp) (line : String) (invocation : Invocation)

/-- **A run, as it is carried out.** -/
theorem run_dialogue : (dialogue stamp line invocation).run ⟨w, "", ""⟩ =
    match logLevel (levelOf invocation.logLevel w.settings) with
    | .error e => (.error e, ⟨w, "", ""⟩)
    | .ok _ =>
      match invocation.command.answer w w.settings with
      | .error e => (.ok 1, ⟨w, "", failureText line e ++ "\n"⟩)
      | .ok (answer, changed) =>
        match recordAnswer changed stamp line invocation.command answer with
        | .error e => (.error e, ⟨changed, answer ++ "\n", ""⟩)
        | .ok recorded => (.ok 0, ⟨recorded, answer ++ "\n", ""⟩) := by
  rw [dialogue, Dialogue.run_get, Dialogue.run_bind, Dialogue.run_onWorkspace, Session.run_attempt]
  cases logLevel (levelOf invocation.logLevel w.settings) with
  | error e => rfl
  | ok level =>
    dsimp only
    rw [Dialogue.run_bind, Dialogue.run_tried, Dialogue.run_onWorkspace, run_steps]
    cases invocation.command.answer w w.settings with
    | error e =>
      dsimp only [Workspace.whole]
      rw [Dialogue.run_bind, Dialogue.run_complain, String.empty_append]
      rfl
    | ok made =>
      obtain ⟨answer, changed⟩ := made
      dsimp only [Workspace.whole]
      rw [Dialogue.run_bind, Dialogue.run_say, recordAnswer, String.empty_append]
      by_cases recorded : invocation.command.isRecorded = true
      · rw [if_pos recorded, if_pos recorded]
        dsimp only
        rw [Dialogue.run_bind, Dialogue.run_onWorkspace, Session.run_addRecord]
        cases changed.addRecord stamp line answer <;> rfl
      · rw [if_neg recorded, if_neg recorded]
        rfl

/-- **A run ends as it is computed.** -/
theorem ended_dialogue :
    Dialogue.ended ((dialogue stamp line invocation).run ⟨w, "", ""⟩) =
      run w stamp line invocation := by
  rw [run_dialogue, run]
  cases logLevel (levelOf invocation.logLevel w.settings) with
  | error e => rfl
  | ok level =>
    cases invocation.command.answer w w.settings with
    | error e => rfl
    | ok made =>
      dsimp only
      cases recordAnswer made.2 stamp line invocation.command made.1 <;> rfl

end Command

end ExactAlgebra
