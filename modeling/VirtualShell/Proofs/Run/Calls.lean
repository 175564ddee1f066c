import VirtualShell.Proofs.Run.Machine
import VirtualShell.Proofs.Run.Steps

/-! # Calls of commands

The interpreter changes the state only where it calls a built-in command.  Which command it calls next,
and with which arguments, can be told before the step in which it does so.
-/

namespace VirtualShell

namespace Interpreter

/-- The built-in command to which a command line is dispatched, and its arguments. -/
def builtin? (registry : Registry) (command : String) : Option (Builtin × List String) :=
  match Input.words command with
  | [] => none
  | first :: given =>
    match registry.get? (Text.lowerOf first) with
    | some (.builtin builtin) => if given.contains "--help" then none else some (builtin, given)
    | _ => none

/-- The state after a call of a built-in command, if there is one. -/
def stateAfter (registry : Registry) (call : Option (Builtin × List String)) (state : State) : State :=
  match call with
  | none => state
  | some (builtin, given) => (builtin.run registry given).after state

theorem runAction_state (action : Action (List Line)) (state : State) :
    (runAction action state).2 = action.after state := by
  unfold runAction Action.after
  cases action state <;> rfl

theorem dispatch_state (registry : Registry) (command : String) (state : State) :
    (dispatch registry command state).2 = stateAfter registry (builtin? registry command) state := by
  unfold dispatch builtin? stateAfter
  cases Input.words command with
  | nil => rfl
  | cons first given =>
      dsimp only
      cases registry.get? (Text.lowerOf first) with
      | none => rfl
      | some program =>
          cases hhelp : given.contains "--help" with
          | true => cases program <;> rfl
          | false =>
              cases program with
              | builtin builtin => exact runAction_state _ state
              | faulty => rfl

end Interpreter

namespace Machine

open Interpreter

/-- The built-in command that the next step calls, and its arguments. -/
def call? (registry : Registry) (machine : Machine) : Option (Builtin × List String) :=
  match machine.tasks with
  | .command text :: _ =>
    let command := String.ofList (Text.trim text.toList)
    let expansion :=
      Input.expand machine.state.session.aliases registry.contains machine.expanding command
    if command.isEmpty ∨ expansion ≠ .unchanged then none else builtin? registry command
  | _ => none

variable {registry : Registry} {machine next : Machine}

/-- A command that is called as it stands does its work; a blank one and an alias do nothing yet. -/
theorem called_state (registry : Registry) (text : String) (rest : List Task) (machine : Machine) :
    (machine.called registry text rest).state =
      stateAfter registry (call? registry { machine with tasks := .command text :: rest }) machine.state := by
  unfold called call?
  dsimp only
  generalize String.ofList (Text.trim text.toList) = command
  by_cases hblank : command.isEmpty
  · rw [if_pos hblank, if_pos (.inl hblank)]
    rfl
  rw [if_neg hblank]
  generalize Input.expand machine.state.session.aliases _ _ _ = expansion
  cases expansion with
  | unchanged =>
      rw [if_neg (by simp [hblank])]
      exact dispatch_state registry command machine.state
  | cycle name =>
      rw [if_pos (by simp)]
      rfl
  | replaced name line =>
      rw [if_pos (by simp)]
      rfl

theorem step_state (taken : step registry machine = some next) :
    next.state = stateAfter registry (machine.call? registry) machine.state := by
  obtain ⟨tasks, sink, expanding, state⟩ := machine
  cases tasks with
  | nil => cases taken
  | cons task rest =>
      cases task with
      | line text =>
          cases taken
          rfl
      | pipeline stages =>
          cases stages with
          | nil =>
              cases taken
              rfl
          | cons first later =>
              cases taken
              rfl
      | command text =>
          cases taken
          exact called_state registry text rest _
      | release outer later =>
          cases taken
          rfl
      | leave =>
          cases taken
          rfl

/-- At the next point of a run the called command has done its work. -/
theorem run_succ_state (count : Nat) (machine : Machine) :
    (run registry (count + 1) machine).state =
      stateAfter registry ((run registry count machine).call? registry) (run registry count machine).state := by
  rw [run_add, run]
  cases htaken : step registry (run registry count machine) with
  | some next => exact step_state htaken
  | none =>
      have hdone : (run registry count machine).tasks = [] := by
        unfold step at htaken
        split at htaken <;> simp_all
      rw [call?, hdone]
      rfl

theorem steps_stateAfter (registry : Registry) (call : Option (Builtin × List String)) (state : State) :
    State.Steps Part.all state (stateAfter registry call state) := by
  cases call with
  | none => exact .refl _ _
  | some call =>
      have hwithin := (Builtin.run_within registry call.1 call.2).steps state
      exact hwithin.mono fun part _ => part.mem_all

theorem exists_run_start (registry : Registry) (line : String) (state : State) :
    ∃ count, run registry count (start line state) =
      ⟨[], (execute registry line state).1, [], (execute registry line state).2⟩ := by
  have hreturns := performs_line (performs_command registry []) line state [] []
  obtain ⟨count, hlast, _⟩ := hreturns.exists_run
  exact ⟨count, hlast⟩

/-- What every change of a state keeps holds at every point of a run. -/
theorem state_run_preserves {kept : State → Prop}
    (hstep : ∀ part before after, State.Step part before after → kept before → kept after)
    (h : kept machine.state) (count : Nat) : kept (run registry count machine).state := by
  have hnext : ∀ machine next, step registry machine = some next → kept machine.state → kept next.state := by
    intro machine next taken h
    rw [step_state taken]
    exact (steps_stateAfter registry _ _).preserves (fun part _ => hstep part) h
  exact run_preserves hnext h count

end Machine

end VirtualShell
