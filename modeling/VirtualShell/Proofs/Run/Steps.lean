import VirtualShell.Interpreter
import VirtualShell.Proofs.Command.Parts

/-! # What a line can do

A run of an input line is a sequence of the steps that its commands take, however the line is divided
and whatever its aliases stand for.
-/

namespace VirtualShell

def Part.all : List Part := [tree, directory, aliases, history]

theorem Part.mem_all (part : Part) : part ∈ all := by
  cases part <;> decide

def State.atTime (now : Moment) (state : State) : State := { state with now }

namespace Interpreter

variable {parts : List Part}

/-- From every state the run only takes steps of the listed parts.  In states that are alike it prints the
same and leaves states that are alike. -/
structure Within (parts : List Part) (run : Run) : Prop where
  steps (state : State) : State.Steps parts state (run state).2
  blind {first second : State} (h : first.Alike second) :
    (run second).1 = (run first).1 ∧ (run first).2.Alike (run second).2

theorem within_pure (lines : List Line) : Within parts (pure lines) where
  steps state := .refl parts state
  blind h := ⟨rfl, h⟩

theorem within_bind {first : Run} {next : List Line → Run} (hfirst : Within parts first)
    (hnext : ∀ lines, Within parts (next lines)) : Within parts (first >>= next) where
  steps state := (hfirst.steps state).trans ((hnext (first state).1).steps (first state).2)
  blind {one other} h := by
    obtain ⟨hlines, halike⟩ := hfirst.blind h
    change (next (first other).1 (first other).2).1 = (next (first one).1 (first one).2).1 ∧
      (next (first one).1 (first one).2).2.Alike (next (first other).1 (first other).2).2
    rw [hlines]
    exact (hnext (first one).1).blind halike

theorem reportError_within (e : ShellError) : Within parts (reportError e) where
  steps state := .refl parts state
  blind h := by
    unfold reportError
    rw [h.root_eq, h.session_eq]
    exact ⟨rfl, h⟩

theorem runAction_within {action : Action (List Line)} (h : action.Within parts) :
    Within parts (runAction action) where
  steps state := by
    have hstate := h.steps state
    unfold Action.after at hstate
    unfold runAction
    cases hrun : action state with
    | error e mid =>
        rw [hrun] at hstate
        exact hstate
    | ok lines mid =>
        rw [hrun] at hstate
        exact hstate
  blind {first second} halike := by
    have hran := h.blind halike
    unfold runAction
    generalize action first = left at hran ⊢
    generalize action second = right at hran ⊢
    cases hran with
    | ok lines hleft => exact ⟨rfl, hleft⟩
    | error e hleft =>
        have hreport : Within parts (reportError e) := reportError_within e
        exact hreport.blind hleft

theorem inOrder_within {runs : List Run} (h : ∀ run ∈ runs, Within parts run) :
    Within parts (inOrder runs) := by
  unfold inOrder
  generalize ([] : List Line) = printed
  induction runs generalizing printed with
  | nil => exact within_pure _
  | cons run runs ih =>
      rw [List.foldlM_cons]
      rw [List.forall_mem_cons] at h
      refine within_bind ?_ fun lines => ih h.2 lines
      exact within_bind h.1 fun lines => within_pure _

theorem dispatch_within (registry : Registry) (command : String) :
    Within Part.all (dispatch registry command) := by
  unfold dispatch
  split
  · exact within_pure _
  · rename_i first given _
    dsimp only
    split
    · exact within_pure _
    · split
      · exact within_pure _
      · split
        · rename_i builtin _
          have hbuiltin := Builtin.run_within registry builtin given
          exact runAction_within (hbuiltin.mono fun part _ => part.mem_all)
        · exact within_pure _

theorem runPipeline_within {runCommand : String → Run} (h : ∀ command, Within parts (runCommand command))
    (stages : List String) : Within parts (runPipeline runCommand stages) := by
  unfold runPipeline
  split
  · exact within_pure _
  · exact within_bind (h _) fun lines => within_pure _

theorem runLine_within {runCommand : String → Run} (h : ∀ command, Within parts (runCommand command))
    (line : String) : Within parts (runLine runCommand line) := by
  fun_induction runLine runCommand line with
  | case1 line joint stages hshape ih =>
      refine inOrder_within fun run hrun => ?_
      obtain ⟨stage, _, rfl⟩ := List.mem_map.mp hrun
      exact ih stage
  | case2 line stages hshape => exact runPipeline_within h stages
  | case3 line command hshape => exact h command

/-- What a command comes to under a table of aliases. -/
def chosenRun (registry : Registry) (deeper : Option (List String → String → Run))
    (expanding : List String) (command : String) (table : AliasTable) : Run :=
  if command.isEmpty then pure []
  else match Input.expand table registry.contains expanding command with
    | .unchanged => dispatch registry command
    | .cycle name => reportError (.aliasCycle name)
    | .replaced name line =>
      match deeper with
      | none => reportError (.aliasCycle name)
      | some runInner => runLine (runInner (name :: expanding)) line

theorem runExpanded_eq (registry : Registry) (deeper : Option (List String → String → Run))
    (expanding : List String) (command : String) :
    runExpanded registry deeper expanding command = fun state =>
      chosenRun registry deeper expanding (String.ofList (Text.trim command.toList))
        state.session.aliases state := by
  funext state
  unfold runExpanded chosenRun
  dsimp only
  by_cases hempty : (String.ofList (Text.trim command.toList)).isEmpty
  · rw [if_pos hempty, if_pos hempty]
    rfl
  rw [if_neg hempty, if_neg hempty]
  cases Input.expand state.session.aliases registry.contains expanding
      (String.ofList (Text.trim command.toList)) with
  | unchanged => rfl
  | cycle name => rfl
  | replaced name line => cases deeper <;> rfl

theorem within_aliases {chosen : AliasTable → Run} (h : ∀ table, Within parts (chosen table)) :
    Within parts fun state => chosen state.session.aliases state where
  steps state := (h state.session.aliases).steps state
  blind {first second} halike := by
    rw [halike.session_eq]
    exact (h first.session.aliases).blind halike

theorem runExpanded_within (registry : Registry) {deeper : Option (List String → String → Run)}
    (h : ∀ runInner ∈ deeper, ∀ expanding command, Within Part.all (runInner expanding command))
    (expanding : List String) (command : String) :
    Within Part.all (runExpanded registry deeper expanding command) := by
  rw [runExpanded_eq]
  refine within_aliases fun table => ?_
  unfold chosenRun
  split
  · exact within_pure _
  · split
    · exact dispatch_within registry _
    · exact reportError_within _
    · split
      · exact reportError_within _
      · rename_i runInner
        exact runLine_within (fun inner => h runInner rfl _ inner) _

theorem runCommand_within (registry : Registry) (depth : Nat) (expanding : List String)
    (command : String) : Within Part.all (runCommand registry depth expanding command) := by
  induction depth generalizing expanding command with
  | zero =>
      exact runExpanded_within registry (by simp) expanding command
  | succ depth ih =>
      refine runExpanded_within registry (fun runInner hinner => ?_) expanding command
      cases hinner
      exact ih

/-- A line takes the state through steps of its parts, and does not see the store. -/
theorem execute_within (registry : Registry) (line : String) : Within Part.all (execute registry line) :=
  runLine_within (runCommand_within registry Input.aliasDepth []) line

/-! ## Runs of many lines -/

def run (registry : Registry) (inputs : List (Moment × String)) (state : State) : State :=
  inputs.foldl (fun state input => (execute registry input.2 (state.atTime input.1)).2) state

theorem run_cons (registry : Registry) (input : Moment × String) (inputs : List (Moment × String))
    (state : State) : run registry (input :: inputs) state =
      run registry inputs (execute registry input.2 (state.atTime input.1)).2 := List.foldl_cons

section Preservation

variable (kept : State → Prop)
  (hstep : ∀ part before after, State.Step part before after → kept before → kept after)

include hstep

theorem execute_preserves {state : State} (h : kept state) (registry : Registry) (line : String) :
    kept (execute registry line state).2 :=
  ((execute_within registry line).steps state).preserves (fun part _ => hstep part) h

theorem run_preserves (htime : ∀ now state, kept state → kept (state.atTime now)) {state : State}
    (h : kept state) (registry : Registry) (inputs : List (Moment × String)) :
    kept (run registry inputs state) := by
  induction inputs generalizing state with
  | nil => exact h
  | cons input inputs ih =>
      have hbefore := htime input.1 state h
      rw [run_cons]
      exact ih (execute_preserves kept hstep hbefore registry input.2)

end Preservation

end Interpreter

end VirtualShell
