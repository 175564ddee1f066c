import VirtualShell.Proofs.Run.Chains

/-! # The interpreter step by step

The interpreter as a machine that carries with it all that a run changes: the calls still to be made,
the lines printed so far, the aliases being expanded and the state.  Nothing bounds its runs from
outside.  They end all the same, each call comes back to the tasks and the aliases that it found, and
what is left at the end is what executing the line gives.
-/

namespace VirtualShell

inductive Task
  | line (text : String)
  | pipeline (stages : List String)
  | command (text : String)
  /-- Ends the capture of a first stage, for which the sink `outer` was set aside. -/
  | release (outer : List Line) (later : List String)
  /-- Ends the expansion of the innermost alias. -/
  | leave

def Task.ofShape : Input.Shape → List Task
  | .chain _ stages => stages.map line
  | .pipeline stages => [pipeline stages]
  | .single text => [command text]

/-- The task is a call, and not the end of one. -/
def Task.IsCall : Task → Prop
  | line _ | pipeline _ | command _ => True
  | release _ _ | leave => False

/-- An interpreter in the course of a run. -/
structure Machine where
  tasks : List Task
  sink : List Line
  expanding : List String
  state : State

namespace Machine

def start (line : String) (state : State) : Machine := ⟨[.line line], [], [], state⟩

def after (run : Interpreter.Run) (rest : List Task) (machine : Machine) : Machine :=
  ⟨rest, machine.sink ++ (run machine.state).1, machine.expanding, (run machine.state).2⟩

/-- The machine that has looked up the first word of a command among the aliases. -/
def lookedUp (registry : Registry) (command : String) (rest : List Task) (machine : Machine) :
    Input.Expansion → Machine
  | .unchanged => machine.after (Interpreter.dispatch registry command) rest
  | .cycle name => machine.after (Interpreter.reportError (.aliasCycle name)) rest
  | .replaced name line =>
    { machine with tasks := .line line :: .leave :: rest, expanding := name :: machine.expanding }

/-- The machine after the call of a command, which may leave the value of an alias to be run. -/
def called (registry : Registry) (text : String) (rest : List Task) (machine : Machine) : Machine :=
  let command := String.ofList (Text.trim text.toList)
  if command.isEmpty then { machine with tasks := rest }
  else machine.lookedUp registry command rest
    (Input.expand machine.state.session.aliases registry.contains machine.expanding command)

/-- The machine after its next task. -/
def step (registry : Registry) (machine : Machine) : Option Machine :=
  match machine.tasks with
  | [] => none
  | .line text :: rest => some { machine with tasks := Task.ofShape (Input.shape text) ++ rest }
  | .pipeline [] :: rest => some { machine with tasks := rest }
  | .pipeline (first :: later) :: rest =>
    some { machine with tasks := .command first :: .release machine.sink later :: rest, sink := [] }
  | .command text :: rest => some (machine.called registry text rest)
  | .release outer later :: rest =>
    some { machine with tasks := rest, sink := outer ++ Interpreter.pipe later machine.sink }
  | .leave :: rest => some { machine with tasks := rest, expanding := machine.expanding.tail }

def run (registry : Registry) : Nat → Machine → Machine
  | 0, machine => machine
  | count + 1, machine =>
    match step registry machine with
    | none => machine
    | some next => run registry count next

/-- The machine works until nothing is left but `rest`, and then for the first time is `last`. -/
inductive Returns (registry : Registry) (rest : List Task) (last : Machine) : Machine → Prop
  | here (done : last.tasks = rest) : Returns registry rest last last
  | step {machine next : Machine} (busy : rest.length < machine.tasks.length)
      (taken : step registry machine = some next) (later : Returns registry rest last next) :
      Returns registry rest last machine

variable {registry : Registry} {machine next last : Machine} {rest : List Task}

/-! ## Runs -/

theorem run_of_step (taken : step registry machine = some next) (count : Nat) :
    run registry (count + 1) machine = run registry count next := by
  rw [run, taken]

theorem run_of_step_none (h : step registry machine = none) (count : Nat) :
    run registry count machine = machine := by
  cases count with
  | zero => rfl
  | succ count => rw [run, h]

theorem run_add (first second : Nat) (machine : Machine) :
    run registry (first + second) machine = run registry second (run registry first machine) := by
  induction first generalizing machine with
  | zero => rw [Nat.zero_add, run]
  | succ first ih =>
      cases htaken : step registry machine with
      | none => rw [run_of_step_none htaken, run_of_step_none htaken, run_of_step_none htaken]
      | some next => rw [Nat.succ_add, run_of_step htaken, run_of_step htaken, ih]

theorem run_preserves {kept : Machine → Prop}
    (hstep : ∀ machine next, step registry machine = some next → kept machine → kept next)
    (h : kept machine) (count : Nat) : kept (run registry count machine) := by
  induction count generalizing machine with
  | zero => exact h
  | succ count ih =>
      cases htaken : step registry machine with
      | none => rwa [run_of_step_none htaken]
      | some next =>
          rw [run_of_step htaken]
          exact ih (hstep machine next htaken h)

namespace Returns

theorem trans {middle : List Task} (hle : rest.length ≤ middle.length)
    (first : Returns registry middle next machine) (second : Returns registry rest last next) :
    Returns registry rest last machine := by
  induction first with
  | here _ => exact second
  | step busy taken _ ih => exact .step (by omega) taken ih

theorem exists_run (h : Returns registry rest last machine) :
    ∃ count, run registry count machine = last ∧
      ∀ before < count, rest.length < (run registry before machine).tasks.length := by
  induction h with
  | here _ => exact ⟨0, rfl, fun before hbefore => absurd hbefore (Nat.not_lt_zero before)⟩
  | step busy taken _ ih =>
      obtain ⟨count, hlast, hbusy⟩ := ih
      refine ⟨count + 1, by rw [run_of_step taken, hlast], fun before hbefore => ?_⟩
      cases before with
      | zero => exact busy
      | succ before =>
          rw [run_of_step taken]
          exact hbusy before (by omega)

end Returns

/-! ## Calls -/

/-- With any tasks behind it and any lines printed before, the task prints `lines`, ends in the state
`final`, and leaves the aliases being expanded as they are. -/
def Prints (registry : Registry) (expanding : List String) (state : State) (task : Task)
    (lines : List Line) (final : State) : Prop :=
  ∀ rest sink, Returns registry rest ⟨rest, sink ++ lines, expanding, final⟩
    ⟨task :: rest, sink, expanding, state⟩

def Performs (registry : Registry) (expanding : List String) (task : Task) (run : Interpreter.Run) :
    Prop :=
  ∀ state, Prints registry expanding state task (run state).1 (run state).2

variable {expanding : List String} {runCommand : String → Interpreter.Run}

theorem returns_stages {stages : List String} {runStage : String → Interpreter.Run}
    (h : ∀ stage ∈ stages, Performs registry expanding (.line stage) (runStage stage))
    (rest : List Task) (sink : List Line) (state : State) :
    Returns registry rest
      (after (Interpreter.inOrder (stages.map runStage)) rest ⟨[], sink, expanding, state⟩)
      ⟨stages.map .line ++ rest, sink, expanding, state⟩ := by
  induction stages generalizing sink state with
  | nil =>
      have hnothing : sink ++ [] = sink := List.append_nil sink
      rw [List.map_nil, after, Interpreter.inOrder_nil, hnothing]
      exact .here rfl
  | cons stage stages ih =>
      rw [List.forall_mem_cons] at h
      have hfirst := h.1 state (stages.map .line ++ rest) sink
      have hlater := ih h.2 (sink ++ (runStage stage state).1) (runStage stage state).2
      rw [List.map_cons, after, Interpreter.inOrder_cons]
      rw [after, List.append_assoc] at hlater
      exact hfirst.trans (by simp) hlater

theorem performs_pipeline (h : ∀ text, Performs registry expanding (.command text) (runCommand text))
    (stages : List String) :
    Performs registry expanding (.pipeline stages) (Interpreter.runPipeline runCommand stages) := by
  intro state rest sink
  cases stages with
  | nil =>
      refine .step (by simp) rfl ?_
      change Returns registry rest ⟨rest, sink ++ [], expanding, state⟩ ⟨rest, sink, expanding, state⟩
      rw [List.append_nil]
      exact .here rfl
  | cons first later =>
      -- The sink waits in the task behind the first stage, and comes back with what `pipe` makes of the lines.
      have hfirst := h first state (.release sink later :: rest) []
      refine .step (by simp) rfl (hfirst.trans (by simp) (.step (by simp) rfl ?_))
      exact .here rfl

theorem returns_line {line : String} {sink : List Line} {state : State}
    (h : Returns registry rest last
      ⟨Task.ofShape (Input.shape line) ++ rest, sink, expanding, state⟩) :
    Returns registry rest last ⟨.line line :: rest, sink, expanding, state⟩ :=
  .step (by simp) rfl h

theorem performs_line (h : ∀ text, Performs registry expanding (.command text) (runCommand text))
    (line : String) :
    Performs registry expanding (.line line) (Interpreter.runLine runCommand line) := by
  induction line using Interpreter.runLine.induct with
  | case1 line joint stages hshape ih =>
      intro state rest sink
      have hstages : ∀ stage ∈ stages,
          Performs registry expanding (.line stage) (Interpreter.runLine runCommand stage) :=
        fun stage hstage => ih ⟨stage, hstage⟩
      rw [Interpreter.runLine_of_chain hshape]
      refine returns_line ?_
      rw [hshape]
      exact returns_stages hstages rest sink state
  | case2 line stages hshape =>
      intro state rest sink
      rw [Interpreter.runLine_of_pipeline hshape]
      refine returns_line ?_
      rw [hshape]
      exact performs_pipeline h stages state rest sink
  | case3 line command hshape =>
      intro state rest sink
      rw [Interpreter.runLine_of_single hshape]
      refine returns_line ?_
      rw [hshape]
      exact h command state rest sink

/-! ## Aliases -/

theorem of_expand_eq_replaced {table : AliasTable} {isCommand : String → Bool} {command name line : String}
    (h : Input.expand table isCommand expanding command = .replaced name line) :
    name ∉ expanding ∧ expanding.length < Input.aliasDepth := by
  unfold Input.expand at h
  dsimp only at h
  split at h
  · cases h
  split at h
  · split at h
    · cases h
    · cases h
  rename_i hnew
  rw [List.contains_iff_mem] at hnew
  split at h
  · cases h
  rename_i hdepth
  split at h
  · cases h
    exact ⟨hnew, Nat.lt_of_not_le hdepth⟩
  · cases h
    exact ⟨hnew, Nat.lt_of_not_le hdepth⟩

theorem performs_expanded {deeper : Option (List String → String → Interpreter.Run)}
    (h : expanding.length < Input.aliasDepth → ∃ runInner, deeper = some runInner ∧
      ∀ name text, Performs registry (name :: expanding) (.command text) (runInner (name :: expanding) text))
    (text : String) :
    Performs registry expanding (.command text)
      (Interpreter.runExpanded registry deeper expanding text) := by
  intro state rest sink
  refine .step (by simp) rfl ?_
  unfold called Interpreter.runExpanded
  dsimp only
  generalize String.ofList (Text.trim text.toList) = command
  split
  · rw [List.append_nil]
    exact .here rfl
  · cases hexpand : Input.expand state.session.aliases registry.contains expanding command with
    | unchanged => exact .here rfl
    | cycle name => exact .here rfl
    | replaced name line =>
        obtain ⟨runInner, rfl, hinner⟩ := h (of_expand_eq_replaced hexpand).2
        -- The value is run with its alias on the list, from which `leave` takes it again.
        have hline := performs_line (hinner name) line state (.leave :: rest) sink
        exact hline.trans (by simp) (.step (by simp) rfl (.here rfl))

/-- The aliases being expanded tell how many more of them may be. -/
theorem performs_command (registry : Registry) (expanding : List String) (text : String) :
    Performs registry expanding (.command text)
      (Interpreter.runCommand registry (Input.aliasDepth - expanding.length) expanding text) := by
  -- Each alias that is expanded takes one from the number of those that still may be.
  generalize hdepth : Input.aliasDepth - expanding.length = depth
  induction depth generalizing expanding text with
  | zero =>
      refine performs_expanded (fun hlength => ?_) text
      omega
  | succ depth ih =>
      refine performs_expanded (fun hlength => ⟨_, rfl, fun name text => ?_⟩) text
      exact ih (name :: expanding) text (by rw [List.length_cons]; omega)

theorem performs_call (registry : Registry) (expanding : List String) {task : Task} (h : task.IsCall) :
    ∃ run, Performs registry expanding task run := by
  have hcommand := performs_command registry expanding
  cases task with
  | line text => exact ⟨_, performs_line hcommand text⟩
  | pipeline stages => exact ⟨_, performs_pipeline hcommand stages⟩
  | command text => exact ⟨_, hcommand text⟩
  | release outer later => exact h.elim
  | leave => exact h.elim

theorem exists_run_of_call {task : Task} (htasks : machine.tasks = task :: rest) (h : task.IsCall) :
    ∃ count, (run registry count machine).tasks = rest ∧
      (run registry count machine).expanding = machine.expanding ∧
      ∀ before < count, rest.length < (run registry before machine).tasks.length := by
  obtain ⟨tasks, sink, expanding, state⟩ := machine
  cases htasks
  obtain ⟨performed, hperforms⟩ := performs_call registry expanding h
  have hreturns := hperforms state rest sink
  obtain ⟨count, hlast, hbusy⟩ := hreturns.exists_run
  exact ⟨count, by rw [hlast], by rw [hlast], hbusy⟩

theorem exists_run_of_chain {text stage : String} {joint : Input.Joint} {front back : List String}
    (htasks : machine.tasks = .line text :: rest)
    (hshape : Input.shape text = .chain joint (front ++ stage :: back)) :
    ∃ count, (run registry count machine).tasks = .line stage :: (back.map .line ++ rest) ∧
      (run registry count machine).expanding = machine.expanding := by
  obtain ⟨tasks, sink, expanding, state⟩ := machine
  cases htasks
  have hcommand := performs_command registry expanding
  have hfront : ∀ stage ∈ front, Performs registry expanding (.line stage) _ :=
    fun stage _ => performs_line hcommand stage
  have hstages := returns_stages hfront (.line stage :: (back.map .line ++ rest)) sink state
  obtain ⟨count, hlast, _⟩ := hstages.exists_run
  have hfirst : step registry ⟨.line text :: rest, sink, expanding, state⟩ = some
      ⟨front.map .line ++ .line stage :: (back.map .line ++ rest), sink, expanding, state⟩ := by
    simp only [step, hshape, Task.ofShape, List.map_append, List.map_cons, List.append_assoc,
      List.cons_append]
  refine ⟨count + 1, ?_, ?_⟩
  · rw [run_of_step hfirst, hlast]
    rfl
  · rw [run_of_step hfirst, hlast]
    rfl

/-! ## Whole runs -/

/-- The aliases being expanded are different ones, and no more than the limit. -/
def Bounded (machine : Machine) : Prop :=
  machine.expanding.Nodup ∧ machine.expanding.length ≤ Input.aliasDepth

theorem step_bounded (machine next : Machine) (taken : step registry machine = some next)
    (h : machine.Bounded) : next.Bounded := by
  unfold step at taken
  split at taken
  · cases taken
  · cases taken
    exact h
  · cases taken
    exact h
  · cases taken
    exact h
  · cases taken
    unfold called
    dsimp only
    split
    · exact h
    · generalize hexpand : Input.expand machine.state.session.aliases _ _ _ = expansion
      cases expansion with
      | unchanged => exact h
      | cycle name => exact h
      | replaced name line =>
          obtain ⟨hnew, hlength⟩ := of_expand_eq_replaced hexpand
          exact ⟨List.nodup_cons.mpr ⟨hnew, h.1⟩, hlength⟩
  · cases taken
    exact h
  · cases taken
    have htail := List.tail_sublist machine.expanding
    exact ⟨h.1.sublist htail, Nat.le_trans htail.length_le h.2⟩

/-- A line comes to an end with what `execute` gives for it.  At every point of the run the aliases being
expanded are different ones and at most 16.  Each call made on the way comes back, and then finds the
tasks behind it and the aliases being expanded as they were; so each stage of a chain begins with the
same aliases as the first. -/
theorem execute_ends (registry : Registry) (line : String) (state : State) :
    let point := fun count => run registry count (start line state)
    let result := Interpreter.execute registry line state
    (∃ count, point count = ⟨[], result.1, [], result.2⟩) ∧
    (∀ count, (point count).expanding.Nodup ∧ (point count).expanding.length ≤ 16) ∧
    (∀ count task rest, (point count).tasks = task :: rest → task.IsCall → ∃ later,
      (point (count + later)).tasks = rest ∧
      (point (count + later)).expanding = (point count).expanding ∧
      ∀ before < later, rest.length < (point (count + before)).tasks.length) ∧
    (∀ count text rest joint front stage back, (point count).tasks = .line text :: rest →
      Input.shape text = .chain joint (front ++ stage :: back) → ∃ later,
      (point (count + later)).tasks = .line stage :: (back.map .line ++ rest) ∧
      (point (count + later)).expanding = (point count).expanding) := by
  intro point result
  have hpoint : ∀ count later, point (count + later) = run registry later (point count) :=
    fun count later => run_add count later _
  refine ⟨?_, fun count => ?_, fun count task rest htasks hcall => ?_,
    fun count text rest joint front stage back htasks hshape => ?_⟩
  · have hreturns := performs_line (performs_command registry []) line state [] []
    obtain ⟨count, hlast, _⟩ := hreturns.exists_run
    exact ⟨count, hlast⟩
  · have hstart : (start line state).Bounded := ⟨List.nodup_nil, Nat.zero_le _⟩
    exact run_preserves step_bounded hstart count
  · simp only [hpoint]
    exact exists_run_of_call htasks hcall
  · simp only [hpoint]
    exact exists_run_of_chain htasks hshape

end Machine

end VirtualShell
