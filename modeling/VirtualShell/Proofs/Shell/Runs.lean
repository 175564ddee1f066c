import VirtualShell.Proofs.Run.Steps
import VirtualShell.Shell

/-! # Invariants of shells

All that a shell does between its start and some later time: it takes the steps of its commands, stands
in its first directory, records lines, and empties its journal after each line.  What all of these keep
holds at every time.
-/

namespace VirtualShell

/-! ## The start -/

namespace State

theorem steps_foldl_addAlias (definitions : List (String × String)) (state : State) :
    Steps Part.all state (definitions.foldl addAlias state) := by
  induction definitions generalizing state with
  | nil => exact .refl _ _
  | cons definition definitions ih =>
      have hfirst : Steps Part.all state (state.addAlias definition) := by
        unfold addAlias
        split
        · exact .refl _ _
        · exact .single (Part.mem_all _) (.setAlias state definition.1 definition.2)
      exact hfirst.trans (ih _)

theorem steps_ensureDirectories (current : String) (names : List String) (state : State) :
    Steps Part.all state (state.ensureDirectories current names) := by
  induction names generalizing current state with
  | nil => exact .refl _ _
  | cons name names ih =>
      unfold ensureDirectories
      dsimp only
      split
      · exact ih _ _
      · split
        · rename_i volume hdone
          have hstep : Step .tree state { state with volume } := .edit (.createDirectory current name) trivial hdone
          exact (Steps.single (Part.mem_all _) hstep).trans (ih _ _)
        · rename_i e volume hrefused
          have hsame := (Change.createDirectory current name).edit_atomic state.volume e volume hrefused
          rw [hsame]
          exact .refl _ _

/-- A start takes the steps of its aliases and of the way to the home directory, and then stands in a
directory. -/
theorem steps_restore (options : Options) (now : Moment) (store : Store) :
    ∃ ready, Steps Part.all (opened options now store) ready ∧
      (restore options now store = ready ∨ ∃ path, restore options now store =
        { ready with session := { ready.session with current := path, previous := path } }) := by
  refine ⟨_, (steps_foldl_addAlias options.aliases.entries (opened options now store)).trans
    (steps_ensureDirectories "/" (Path.segments options.home) _), ?_⟩
  unfold restore standIn
  dsimp only
  split
  · exact .inr ⟨_, rfl⟩
  · exact .inl rfl

end State

/-! ## Runs -/

namespace Shell

def atTime (now : Moment) (shell : Shell) : Shell := { shell with state := { shell.state with now } }

/-- The shell after lines of input, each with the time at which it is run. -/
def run (inputs : List (Moment × String)) (shell : Shell) : Shell :=
  inputs.foldl (fun shell input => ((shell.atTime input.1).exec input.2).2) shell

theorem run_nil (shell : Shell) : shell.run [] = shell := by
  unfold run
  rw [List.foldl_nil]

theorem run_cons (input : Moment × String) (inputs : List (Moment × String)) (shell : Shell) :
    shell.run (input :: inputs) = ((shell.atTime input.1).exec input.2).2.run inputs := by
  unfold run
  rw [List.foldl_cons]

theorem journal_start (options : Options) (now : Moment) (store : Store) :
    (start options now store).1.state.volume.journal = [] := by
  simp only [start, settle, State.settled]

theorem journal_exec {shell : Shell} (h : shell.state.volume.journal = []) (line : String) :
    (shell.exec line).2.state.volume.journal = [] := by
  unfold exec
  dsimp only
  split
  · exact h
  · rfl

/-- Between two lines the journal is empty. -/
theorem journal_run {shell : Shell} (h : shell.state.volume.journal = []) (inputs : List (Moment × String)) :
    (shell.run inputs).state.volume.journal = [] := by
  induction inputs generalizing shell with
  | nil => exact h
  | cons input inputs ih =>
      have hlater : (shell.atTime input.1).state.volume.journal = [] := h
      rw [run_cons]
      exact ih (journal_exec hlater input.2)

/-- What is kept of a state by everything that a shell does. -/
structure Invariant (kept : State → Prop) : Prop where
  step {part : Part} {before after : State} : State.Step part before after → kept before → kept after
  stand {state : State} (path : String) : kept state →
    kept { state with session := { state.session with current := path, previous := path } }
  record {state : State} (line : String) : kept state → kept (state.record line)
  settle {state : State} : kept state → kept state.settled
  atTime {state : State} (now : Moment) : kept state → kept (state.atTime now)

namespace Invariant

variable {kept : State → Prop} {store : Store} {state : State}

theorem execute (inv : Invariant kept) (h : kept state) (registry : Registry) (line : String) :
    kept (Interpreter.execute registry line state).2 :=
  Interpreter.execute_preserves kept (fun _ _ _ => inv.step) h registry line

/-- What holds of the state that a store gives holds of the shell that starts over it. -/
theorem start (inv : Invariant kept) (options : Options) (now : Moment)
    (h : kept (State.opened options now store)) : kept (Shell.start options now store).1.state := by
  obtain ⟨ready, hsteps, hrestore⟩ := State.steps_restore options now store
  have hready := hsteps.preserves (fun _ _ _ _ hstep => inv.step hstep) h
  refine inv.settle ?_
  rcases hrestore with hrestore | ⟨path, hrestore⟩
  · rw [hrestore]
    exact hready
  · rw [hrestore]
    exact inv.stand path hready

variable {shell : Shell}

theorem exec (inv : Invariant kept) (h : kept shell.state) (line : String) :
    kept (shell.exec line).2.state := by
  unfold Shell.exec
  dsimp only
  generalize String.ofList (Text.trim line.toList) = line
  have hran := inv.execute (inv.record line h) .standard line
  generalize Interpreter.execute .standard line (shell.state.record line) = ran at hran ⊢
  split
  · exact h
  · exact inv.settle hran

theorem run (inv : Invariant kept) (h : kept shell.state) (inputs : List (Moment × String)) :
    kept (shell.run inputs).state := by
  induction inputs generalizing shell with
  | nil => exact h
  | cons input inputs ih =>
      have hlater : kept (shell.atTime input.1).state := inv.atTime input.1 h
      rw [run_cons]
      exact ih (inv.exec hlater input.2)

end Invariant

end Shell

end VirtualShell
