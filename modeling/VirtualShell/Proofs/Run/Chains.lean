import VirtualShell.Interpreter
import VirtualShell.Proofs.Input.Pipelines

/-! # Running a chain

Running a line is running its pipelines in order.  So a line that joins two others prints and does what
the two do one after the other.
-/

namespace VirtualShell.Interpreter

open Input

/-! ## Parts in order -/

theorem inOrder_nil (state : State) : inOrder [] state = ([], state) := rfl

/-- What was printed before stays in front. -/
theorem foldlM_inOrder (parts : List Run) (printed : List Line) (state : State) :
    (parts.foldlM (fun lines part => return lines ++ (← part)) printed : Run) state =
      (printed ++ (inOrder parts state).1, (inOrder parts state).2) := by
  induction parts generalizing printed state with
  | nil =>
      rw [inOrder_nil, List.append_nil]
      rfl
  | cons part parts ih =>
      have hfirst := ih (printed ++ (part state).1) (part state).2
      have hinner := ih ([] ++ (part state).1) (part state).2
      rw [inOrder, List.foldlM_cons, List.foldlM_cons]
      change (parts.foldlM _ (printed ++ (part state).1) : Run) (part state).2 =
        (printed ++ ((parts.foldlM _ ([] ++ (part state).1) : Run) (part state).2).1,
          ((parts.foldlM _ ([] ++ (part state).1) : Run) (part state).2).2)
      rw [hfirst, hinner, List.nil_append, List.append_assoc]

theorem inOrder_cons (part : Run) (parts : List Run) (state : State) :
    inOrder (part :: parts) state =
      ((part state).1 ++ (inOrder parts (part state).2).1, (inOrder parts (part state).2).2) := by
  rw [inOrder, List.foldlM_cons]
  exact foldlM_inOrder parts (part state).1 (part state).2

theorem inOrder_append (first second : List Run) (state : State) :
    inOrder (first ++ second) state =
      ((inOrder first state).1 ++ (inOrder second (inOrder first state).2).1,
        (inOrder second (inOrder first state).2).2) := by
  induction first generalizing state with
  | nil => rfl
  | cons part first ih =>
      rw [List.cons_append, inOrder_cons, inOrder_cons, ih]
      simp only [List.append_assoc]

theorem inOrder_flatMap {α : Type} (items : List α) (parts : α → List Run) :
    inOrder (items.flatMap parts) = inOrder (items.map fun item => inOrder (parts item)) := by
  funext state
  induction items generalizing state with
  | nil => rfl
  | cons item items ih => rw [List.flatMap_cons, inOrder_append, ih, List.map_cons, inOrder_cons]

theorem inOrder_singleton (part : Run) : inOrder [part] = part := by
  funext state
  rw [inOrder_cons, inOrder_nil, List.append_nil]
  rfl

/-! ## Lines -/

variable {run : String → Run} {line command : String} {joint : Joint} {stages : List String}

theorem runLine_of_chain (h : shape line = .chain joint stages) :
    runLine run line = inOrder (stages.map (runLine run)) := by
  rw [runLine]
  split
  · rename_i hshape
    rw [h] at hshape
    cases hshape
    rw [List.attach_map_val (f := runLine run)]
  · rename_i hshape
    rw [h] at hshape
    cases hshape
  · rename_i hshape
    rw [h] at hshape
    cases hshape

theorem runLine_of_pipeline (h : shape line = .pipeline stages) :
    runLine run line = runPipeline run stages := by
  rw [runLine]
  split <;> simp_all

theorem runLine_of_single (h : shape line = .single command) : runLine run line = run command := by
  rw [runLine]
  split <;> simp_all

theorem runPipeline_singleton (command : String) : runPipeline run [command] = run command := rfl

/-- However the operators of a line are nested, its pipelines run one after the other. -/
theorem runLine_eq_inOrder (hblank : run "" = pure []) (line : String) :
    runLine run line = inOrder ((pipelines line.toList).map (runPipeline run)) := by
  fun_induction runLine run line with
  | case1 line joint stages hshape ih =>
      have hstages : stages.attach.map (fun stage => runLine run stage.1) = stages.map fun stage =>
          inOrder ((pipelines stage.toList).map (runPipeline run)) := by
        rw [← List.attach_map_val (l := stages)]
        exact List.map_congr_left fun stage _ => ih stage
      rw [hstages, ← inOrder_flatMap, ← List.map_flatMap, flatMap_pipelines_of_chain hshape]
  | case2 line stages hshape => rw [pipelines_of_pipeline hshape, List.map_singleton, inOrder_singleton]
  | case3 line command hshape =>
      rw [pipelines_of_single hshape]
      by_cases hcommand : command = ""
      · rw [if_pos hcommand, hcommand, hblank]
        rfl
      · rw [if_neg hcommand, List.map_singleton, inOrder_singleton, runPipeline_singleton]

theorem runCommand_empty (registry : Registry) (depth : Nat) (expanding : List String) :
    runCommand registry depth expanding "" = pure [] := by
  have hempty : (String.ofList (Text.trim "".toList)).isEmpty = true := by decide
  funext state
  cases depth with
  | zero =>
      rw [runCommand, runExpanded]
      exact if_pos hempty
  | succ depth =>
      rw [runCommand, runExpanded]
      exact if_pos hempty

theorem execute_eq_inOrder (registry : Registry) (line : String) :
    execute registry line =
      inOrder ((pipelines line.toList).map (runPipeline (runCommand registry aliasDepth []))) :=
  runLine_eq_inOrder (runCommand_empty registry aliasDepth []) line

theorem execute_joined {registry : Registry} {first second joined : String}
    (h : pipelines joined.toList = pipelines first.toList ++ pipelines second.toList) (state : State) :
    let ran := execute registry first state
    let more := execute registry second ran.2
    execute registry joined state = (ran.1 ++ more.1, more.2) := by
  intro ran more
  rw [execute_eq_inOrder, h, List.map_append, inOrder_append, ← execute_eq_inOrder, ← execute_eq_inOrder]

/-- Two lines joined by a semicolon, or by double ampersands between blanks, print what the first prints
and then what the second prints in the state that the first leaves, and end in the state in which the
second ends. -/
theorem execute_chain (registry : Registry) (first second : String) (state : State) :
    let ran := execute registry first state
    let more := execute registry second ran.2
    execute registry (first ++ ";" ++ second) state = (ran.1 ++ more.1, more.2) ∧
      execute registry (first ++ " && " ++ second) state = (ran.1 ++ more.1, more.2) := by
  intro ran more
  constructor
  · refine execute_joined ?_ state
    rw [← pipelines_append_semicolon]
    simp [String.toList_append]
  · refine execute_joined ?_ state
    rw [← pipelines_append_pair]
    simp [String.toList_append]

end VirtualShell.Interpreter
