import VirtualShell.Proofs.Command.Frame
import VirtualShell.Proofs.Run.Calls
import VirtualShell.Proofs.Run.Rewriting
import VirtualShell.Proofs.Shell.Home

/-! # Where a shell stands

The working directory and the previous one are written in the canonical form at every point of every run,
if the first directory of the shell was one.  A change of the directory moves the session to a directory
or leaves it alone, and going back twice leads to where one was.
-/

namespace VirtualShell

namespace Path

structure IsCanonical (path : String) : Prop where
  absolute : path.toList.head? = some '/'
  canonical_eq : canonical path = path

theorem isCanonical_canonical (path : String) : IsCanonical (canonical path) where
  absolute := head?_ofSegments _
  canonical_eq := canonical_canonical path

theorem IsCanonical.resolve_eq {path : String} (h : IsCanonical path) (current : String) :
    resolve current path = path := resolve_absolute h.absolute current

end Path

theorem Node.isCanonical_of_changePath {root : Node} {current target path : String}
    (h : root.changePath current target = .ok path) : Path.IsCanonical path ∧ root.HasDirectory path := by
  obtain ⟨hthere, rfl⟩ := changePath_eq_ok_iff.mp h
  exact ⟨Path.isCanonical_canonical _, (hasDirectory_congr (Path.segments_canonical _)).mpr hthere⟩

theorem Node.changePath_of_isCanonical {root : Node} {path : String} (hpath : Path.IsCanonical path)
    (hthere : root.HasDirectory path) (current : String) : root.changePath current path = .ok path := by
  have hresolve := hpath.resolve_eq current
  exact changePath_eq_ok_iff.mpr ⟨by rwa [hresolve], by rw [hresolve, hpath.canonical_eq]⟩

namespace State

structure Stands (state : State) : Prop where
  current : Path.IsCanonical state.session.current
  previous : Path.IsCanonical state.session.previous

structure Moved (before after : State) : Prop where
  previous : after.session.previous = before.session.current
  found : after.volume.root.HasDirectory after.session.current
  root : after.volume.root = before.volume.root

structure Stayed (before after : State) : Prop where
  current : after.session.current = before.session.current
  previous : after.session.previous = before.session.previous

/-- To go back twice is to be in the same state again. -/
def Toggles (state : State) : Prop :=
  ∃ mid : State, Command.cd ["-"] state = .ok [.output state.session.previous] mid ∧
    mid.session.current = state.session.previous ∧ mid.session.previous = state.session.current ∧
    Command.cd ["-"] mid = .ok [.output state.session.current] state

variable {state before after : State} {options : Options} {now : Moment} {store : Store}

theorem Stayed.stands (h : Stayed before after) (hbefore : before.Stands) : after.Stands where
  current := by
    rw [h.current]
    exact hbefore.current
  previous := by
    rw [h.previous]
    exact hbefore.previous

theorem Stayed.of_frame {parts : List Part} (h : Frame parts before after) (hparts : Part.directory ∉ parts) :
    Stayed before after := ⟨(h.directory hparts).1, (h.directory hparts).2⟩

theorem stands_step (part : Part) (before after : State) (h : Step part before after)
    (hbefore : before.Stands) : after.Stands := by
  by_cases hpart : part = .directory
  · subst hpart
    cases h with
    | enter target found => exact ⟨(Node.isCanonical_of_changePath found).1, hbefore.current⟩
  · exact (Stayed.of_frame h.frame (by simpa using Ne.symm hpart)).stands hbefore

/-! ## Changes of the directory -/

theorem moved_of_cd {given : List String} {lines : List Line} (h : Command.cd given before = .ok lines after) :
    Moved before after := by
  rw [Command.cd_apply] at h
  split at h
  · rename_i path hfound
    cases h
    exact ⟨rfl, (Node.isCanonical_of_changePath hfound).2, rfl⟩
  · cases h

theorem stayed_of_cd {given : List String} {e : ShellError} (h : Command.cd given before = .error e after) :
    Stayed before after := by
  rw [Command.cd_apply] at h
  split at h
  · cases h
  · cases h
    exact ⟨rfl, rfl⟩

theorem cd_succeeds_iff {given : List String} :
    (∃ lines left, Command.cd given state = .ok lines left) ↔ state.volume.root.HasDirectory
      (Path.resolve state.session.current (Command.directoryOperand state.session (given.headD "~")).1) := by
  rw [Command.cd_apply]
  generalize (Command.directoryOperand state.session (given.headD "~")).1 = target
  cases hfound : state.volume.root.changePath state.session.current target with
  | ok path => simp [(Node.changePath_eq_ok_iff.mp hfound).1]
  | error e =>
      have hmissing : ¬ state.volume.root.HasDirectory (Path.resolve state.session.current target) := by
        intro hthere
        rw [Node.changePath_eq_ok_iff.mpr ⟨hthere, rfl⟩] at hfound
        cases hfound
      simp [hmissing]

theorem stayed_stateAfter {registry : Registry} {call : Option (Builtin × List String)}
    (h : ∀ given, call ≠ some (.cd, given)) (state : State) :
    Stayed state (Interpreter.stateAfter registry call state) := by
  cases call with
  | none => exact ⟨rfl, rfl⟩
  | some call =>
      obtain ⟨builtin, given⟩ := call
      have hcd : builtin ≠ .cd := by
        rintro rfl
        exact h given rfl
      have hframe := ((Builtin.run_within registry builtin given).steps state).frame
      exact .of_frame hframe (mt Builtin.directory_mem_parts_iff.mp hcd)

theorem cd_back (state : State) (hprevious : Path.IsCanonical state.session.previous)
    (hthere : state.volume.root.HasDirectory state.session.previous) :
    Command.cd ["-"] state = .ok [.output state.session.previous]
      { state with session := state.session.changeDirectory state.session.previous } := by
  have hfound := Node.changePath_of_isCanonical hprevious hthere state.session.current
  have hoperand : Command.directoryOperand state.session "-" = (state.session.previous, true) := rfl
  exact Command.cd_eq_ok hoperand hfound

theorem toggles (h : state.Stands) (hcurrent : state.volume.root.HasDirectory state.session.current)
    (hprevious : state.volume.root.HasDirectory state.session.previous) : state.Toggles := by
  let mid := { state with session := state.session.changeDirectory state.session.previous }
  have hback : Command.cd ["-"] mid = .ok [.output state.session.current] state :=
    cd_back mid h.current hcurrent
  exact ⟨mid, cd_back state h.previous hprevious, rfl, rfl, hback⟩

/-! ## The start -/

def prepared (options : Options) (now : Moment) (store : Store) : State :=
  (ready options now store).ensureDirectories "/" (Path.segments options.home)

/-- The first directory of a start: the one that the options ask for, named from the home directory, or the
home directory itself. -/
def firstDirectory (options : Options) (now : Moment) (store : Store) : Except FileError String :=
  (prepared options now store).volume.root.changePath options.home (options.start.getD options.home)

theorem standIn_of_ok {home start path : String} (h : state.volume.root.changePath home start = .ok path) :
    state.standIn home start =
      { state with session := { state.session with current := path, previous := path } } := by
  unfold standIn
  rw [h]

theorem stands_restore {first : String} (h : firstDirectory options now store = .ok first) :
    (restore options now store).Stands := by
  have hrestore : restore options now store =
      (prepared options now store).standIn options.home (options.start.getD options.home) := rfl
  have hfirst := (Node.isCanonical_of_changePath h).1
  rw [hrestore, standIn_of_ok h]
  exact ⟨hfirst, hfirst⟩

theorem stands_settled (h : state.Stands) : state.settled.Stands := ⟨h.current, h.previous⟩

theorem stands_record (h : state.Stands) (line : String) : (state.record line).Stands := by
  have hstayed : Stayed state (state.record line) := by
    constructor
    · rw [record, session_setHistory]
    · rw [record, session_setHistory]
  exact hstayed.stands h

end State

namespace Machine

/-- What is so of the place of the session at one point of a run, and in the state `after` of the next. -/
structure Places (registry : Registry) (machine : Machine) (after : State) : Prop where
  stands : machine.state.Stands
  /-- Nothing but a change of the directory moves the session. -/
  other : (∀ given, machine.call? registry ≠ some (.cd, given)) → machine.state.Stayed after
  /-- A change of the directory succeeds exactly if its operand stands for a directory. -/
  succeeds_iff : ∀ given, machine.call? registry = some (.cd, given) →
    ((∃ lines left, Command.cd given machine.state = .ok lines left) ↔
      machine.state.volume.root.HasDirectory (Path.resolve machine.state.session.current
        (Command.directoryOperand machine.state.session (given.headD "~")).1))
  moved : ∀ given lines left, machine.call? registry = some (.cd, given) →
    Command.cd given machine.state = .ok lines left → machine.state.Moved after
  refused : ∀ given e left, machine.call? registry = some (.cd, given) →
    Command.cd given machine.state = .error e left → machine.state.Stayed after
  toggles : machine.state.volume.root.HasDirectory machine.state.session.current →
    machine.state.volume.root.HasDirectory machine.state.session.previous → machine.state.Toggles

theorem run_places (registry : Registry) {machine : Machine} (h : machine.state.Stands) (count : Nat) :
    (run registry count machine).Places registry (run registry (count + 1) machine).state := by
  have hstands : (run registry count machine).state.Stands :=
    state_run_preserves State.stands_step h count
  rw [run_succ_state]
  generalize run registry count machine = point at hstands ⊢
  exact
    { stands := hstands
      other := fun hother => State.stayed_stateAfter hother point.state
      succeeds_iff := fun _ _ => State.cd_succeeds_iff
      moved := fun given lines left hcall hdone => by
        rw [hcall, Interpreter.stateAfter, Builtin.run, Action.after, hdone]
        exact State.moved_of_cd hdone
      refused := fun given e left hcall hrefused => by
        rw [hcall, Interpreter.stateAfter, Builtin.run, Action.after, hrefused]
        exact State.stayed_of_cd hrefused
      toggles := State.toggles hstands }

end Machine

namespace Shell

variable {shell : Shell}

/-- The interpreter before it runs a line of input; a blank line leaves it nothing to do. -/
def begin (line : String) (shell : Shell) : Machine :=
  let line := String.ofList (Text.trim line.toList)
  if line.isEmpty then ⟨[], [], [], shell.state⟩ else .start line (shell.state.record line)

theorem stands_begin (h : shell.state.Stands) (line : String) : (shell.begin line).state.Stands := by
  unfold begin
  dsimp only
  split
  · exact h
  · exact State.stands_record h _

theorem stands_exec (h : shell.state.Stands) (line : String) : (shell.exec line).2.state.Stands := by
  unfold exec
  dsimp only
  generalize String.ofList (Text.trim line.toList) = line
  split
  · exact h
  · have hrecorded := State.stands_record h line
    have hran := Interpreter.execute_preserves State.Stands State.stands_step hrecorded .standard line
    exact ⟨hran.current, hran.previous⟩

theorem stands_run (h : shell.state.Stands) (inputs : List (Moment × String)) :
    (shell.run inputs).state.Stands := by
  induction inputs generalizing shell with
  | nil => exact h
  | cons input inputs ih =>
      have hlater : (shell.atTime input.1).state.Stands := ⟨h.current, h.previous⟩
      rw [run_cons]
      exact ih (stands_exec hlater input.2)

/-- A line comes to an end in the state that the shell has after it, up to the saves to be carried out. -/
theorem begin_settles (shell : Shell) (line : String) :
    ∃ count, (Machine.run .standard count (shell.begin line)).tasks = [] ∧
      (Machine.run .standard count (shell.begin line)).state.settled = (shell.exec line).2.state.settled := by
  unfold begin exec
  dsimp only
  generalize String.ofList (Text.trim line.toList) = line
  by_cases hblank : line.isEmpty
  · rw [if_pos hblank, if_pos hblank]
    exact ⟨0, rfl, rfl⟩
  · rw [if_neg hblank, if_neg hblank]
    obtain ⟨count, hlast⟩ := Machine.exists_run_start .standard line (shell.state.record line)
    refine ⟨count, ?_, ?_⟩
    · rw [hlast]
    · rw [hlast]
      rfl

theorem begin_ends (shell : Shell) (hjournal : shell.state.volume.journal = []) (line : String) :
    ∃ count, (Machine.run .standard count (shell.begin line)).tasks = [] ∧
      (Machine.run .standard count (shell.begin line)).state.settled = (shell.exec line).2.state := by
  obtain ⟨count, hdone, hstate⟩ := begin_settles shell line
  have hjournal := journal_exec hjournal line
  refine ⟨count, hdone, hstate.trans ?_⟩
  rw [State.settled, ← hjournal]

/-! ## Going back, line by line -/

/-- Unless there is an alias of that name, the line calls the command. -/
theorem execute_back (state : State) (halias : state.session.aliases.value? "cd" = none)
    (hprevious : Path.IsCanonical state.session.previous)
    (hthere : state.volume.root.HasDirectory state.session.previous) :
    Interpreter.execute .standard "cd -" state = ([.output state.session.previous],
      { state with session := state.session.changeDirectory state.session.previous }) := by
  have hmade : Input.MadeOf ["cd", "-"] ("cd" ++ " " ++ "-") :=
    (show Input.IsWord "-" by decide).madeOf.cons (by decide)
  have htext : "cd" ++ " " ++ "-" = "cd -" := by decide
  have hprogram : Registry.standard.get? (Text.lowerOf "cd") = some (.builtin .cd) := by decide
  have hrun := Interpreter.execute_of_builtin hmade halias hprogram (by decide)
  rw [← htext, hrun]
  change Interpreter.runAction (Command.cd ["-"]) state = _
  rw [Interpreter.runAction, State.cd_back state hprevious hthere]

theorem exec_back (shell : Shell) (halias : shell.state.session.aliases.value? "cd" = none)
    (hstands : shell.state.Stands)
    (hthere : shell.state.volume.root.HasDirectory shell.state.session.previous) :
    let back := (shell.exec "cd -").2.state
    back.session.current = shell.state.session.previous ∧
      back.session.previous = shell.state.session.current ∧
      back.session.aliases = shell.state.session.aliases ∧ back.volume.root = shell.state.volume.root := by
  have hline : String.ofList (Text.trim "cd -".toList) = "cd -" := by decide
  have hrecord := State.session_setHistory (Session.recorded "cd -" shell.state.session.history) shell.state
  have hroot := State.root_setHistory (Session.recorded "cd -" shell.state.session.history) shell.state
  rw [← State.record] at hrecord hroot
  have hran := execute_back (shell.state.record "cd -") (by rw [hrecord]; exact halias)
    (State.stands_record hstands _).previous (by rw [hroot, hrecord]; exact hthere)
  unfold exec
  dsimp only
  rw [hline, if_neg (by decide), hran]
  dsimp only [settle, State.settled]
  rw [hrecord, hroot]
  exact ⟨rfl, rfl, rfl, rfl⟩

theorem exec_back_twice (hstands : shell.state.Stands)
    (hcurrent : shell.state.volume.root.HasDirectory shell.state.session.current)
    (hprevious : shell.state.volume.root.HasDirectory shell.state.session.previous)
    (halias : shell.state.session.aliases.value? "cd" = none) (first second : Moment) :
    shell.state.Stayed
      ((((shell.atTime first).exec "cd -").2.atTime second).exec "cd -").2.state := by
  have hfirst : (shell.atTime first).state.Stands := ⟨hstands.current, hstands.previous⟩
  have hstandsMid := stands_exec hfirst "cd -"
  have hback := exec_back (shell.atTime first) halias hfirst hprevious
  generalize ((shell.atTime first).exec "cd -").2 = mid at hstandsMid hback ⊢
  obtain ⟨hmid, hleft, haliases, hroot⟩ := hback
  have hsecond : (mid.atTime second).state.Stands := ⟨hstandsMid.current, hstandsMid.previous⟩
  have hthere : mid.state.volume.root.HasDirectory mid.state.session.previous := by
    rw [hroot, hleft]
    exact hcurrent
  have hagain := exec_back (mid.atTime second) (haliases ▸ halias) hsecond hthere
  exact ⟨hagain.1.trans hleft, hagain.2.1.trans hmid⟩

/-- A shell whose first directory was one stands in a canonical path after any lines of input, and so it does
at every point of the line after them.  On the way only a change of the directory moves the session.  It
succeeds exactly if its operand stands for a directory; then the session is in a directory, and the one that
it left is the previous one.  Otherwise nothing moves.  As long as both are directories, going back twice
leads to the same state again; so it does as two lines of input, unless there is an alias of that name. -/
theorem run_stands (options : Options) (now : Moment) (store : Store) {first : String}
    (haccepted : State.firstDirectory options now store = .ok first) (inputs : List (Moment × String)) :
    let shell := (start options now store).1.run inputs
    shell.state.Stands ∧
    (∀ now line,
      let shell := shell.atTime now
      let point := fun count => Machine.run .standard count (shell.begin line)
      (∃ count, (point count).tasks = [] ∧ (point count).state.settled = (shell.exec line).2.state) ∧
      ∀ count, (point count).Places .standard (point (count + 1)).state) ∧
    (shell.state.volume.root.HasDirectory shell.state.session.current →
      shell.state.volume.root.HasDirectory shell.state.session.previous →
      shell.state.session.aliases.value? "cd" = none →
      ∀ first second, shell.state.Stayed (shell.run [(first, "cd -"), (second, "cd -")]).state) := by
  intro shell
  have hstart : (start options now store).1.state.Stands := by
    change (State.restore options now store).settled.Stands
    exact State.stands_settled (State.stands_restore haccepted)
  have hstands : shell.state.Stands := stands_run hstart inputs
  have hjournal : shell.state.volume.journal = [] := journal_run (journal_start options now store) inputs
  clear_value shell
  refine ⟨hstands, fun now line => ⟨begin_ends (shell.atTime now) hjournal line, fun count => ?_⟩, ?_⟩
  · have hlater : (shell.atTime now).state.Stands := ⟨hstands.current, hstands.previous⟩
    exact Machine.run_places .standard (stands_begin hlater line) count
  · intro hcurrent hprevious halias first second
    have hback := exec_back_twice hstands hcurrent hprevious halias first second
    simpa only [run_cons, run_nil] using hback

def fromDocuments : Options := { start := some "documents//" }

/-- The directory is changed in a stage that is captured, through an alias, and by a path that is not in the
canonical form. -/
theorem run_stands_documents :
    State.firstDirectory fromDocuments .epoch (.memory .empty) = .ok "/home/user/documents" ∧
    ∃ shell, (start fromDocuments .epoch (.memory .empty)).1.run
        [(.epoch, "alias up='cd ..'; up | wc; cd /tmp//")] = shell ∧
      shell.state.session.current = "/tmp" ∧ shell.state.session.previous = "/home/user" ∧
      shell.state.Stands ∧
      shell.state.Stayed (shell.run [(.epoch, "cd -"), (.epoch, "cd -")]).state := by
  have haccepted : State.firstDirectory fromDocuments .epoch (.memory .empty) =
      .ok "/home/user/documents" := by decide +kernel
  have hthere := run_stands fromDocuments .epoch (.memory .empty) haccepted
    [(.epoch, "alias up='cd ..'; up | wc; cd /tmp//")]
  refine ⟨haccepted, _, rfl, ?_⟩
  generalize hshell : (start fromDocuments .epoch (.memory .empty)).1.run _ = shell at hthere ⊢
  have hcurrent : shell.state.session.current = "/tmp" := by
    rw [← hshell]
    decide +kernel
  have hprevious : shell.state.session.previous = "/home/user" := by
    rw [← hshell]
    decide +kernel
  have hfound : shell.state.volume.root.labelAt ["tmp"] = some none ∧
      shell.state.volume.root.labelAt ["home", "user"] = some none := by
    rw [← hshell]
    decide +kernel
  have halias : shell.state.session.aliases.value? "cd" = none := by
    rw [← hshell]
    decide +kernel
  obtain ⟨hstands, _, hback⟩ := hthere
  rw [hcurrent, hprevious, Node.hasDirectory_iff_labelAt, Node.hasDirectory_iff_labelAt] at hback
  exact ⟨hcurrent, hprevious, hstands, hback hfound.1 hfound.2 halias .epoch .epoch⟩

end Shell

end VirtualShell
