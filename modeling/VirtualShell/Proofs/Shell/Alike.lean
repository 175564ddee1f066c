import VirtualShell.Proofs.Command.Frame
import VirtualShell.Proofs.Shell.Restore

/-! # Shells over stores that read alike

A shell reads its store only when it starts, and goes on in the same way whether a save succeeds or
fails.  Two shells over stores that read alike run side by side: after every line their states differ at
most in their stores, and each store is what the saves have made of it.
-/

namespace VirtualShell

/-- A shell that starts finds the same in both stores. -/
def Store.ReadAlike (store other : Store) : Prop := ∀ key ∈ Save.keys, other.read? key = store.read? key

namespace Store.ReadAlike

variable {store other : Store}

theorem files (h : store.ReadAlike other) : other.read? Save.filesKey = store.read? Save.filesKey :=
  h _ (by decide)

theorem aliases (h : store.ReadAlike other) :
    other.read? Save.aliasesKey = store.read? Save.aliasesKey := h _ (by decide)

theorem history (h : store.ReadAlike other) :
    other.read? Save.historyKey = store.read? Save.historyKey := h _ (by decide)

/-- Which writes fail is not seen by reading. -/
theorem memory (entries : Entries String) (badReads badWrites : List String) :
    (Store.memory ⟨entries, badReads, []⟩).ReadAlike (.memory ⟨entries, badReads, badWrites⟩) :=
  fun _ _ => rfl

end Store.ReadAlike

/-! ## The start -/

namespace State

variable {first second : State} {store other : Store}

theorem opened_alike (h : store.ReadAlike other) (options : Options) (now : Moment) :
    (opened options now store).Alike (opened options now other) := by
  have hsession : ∀ session : Session, session.restore other = session.restore store := by
    intro session
    unfold Session.restore
    rw [h.aliases, h.history]
  have hvolume : Volume.restore other =
      { Volume.restore store with store := (Volume.restore other).store } := by
    unfold Volume.restore
    rw [h.files]
    cases (store.read? Save.filesKey).bind Node.ofBlob? <;> rfl
  rw [opened_eq, opened_eq, hsession, hvolume]
  exact ⟨_, rfl⟩

namespace Alike

theorem foldl_addAlias (h : first.Alike second) (definitions : List (String × String)) :
    (definitions.foldl addAlias first).Alike (definitions.foldl addAlias second) := by
  induction definitions generalizing first second with
  | nil => exact h
  | cons definition definitions ih =>
      refine ih ?_
      unfold addAlias
      rw [h.session_eq]
      split
      · exact h
      · exact h.setAlias _ _

theorem ensureDirectories (h : first.Alike second) (current : String) (names : List String) :
    (first.ensureDirectories current names).Alike (second.ensureDirectories current names) := by
  induction names generalizing current first second with
  | nil => exact h
  | cons name names ih =>
      obtain ⟨verdict, hverdict⟩ := (Change.createDirectory current name).edit_decided first.volume.root
      have hfirst : Edit.createDirectory current name first.volume = Edit.enact verdict first.volume :=
        hverdict first.volume rfl
      have hsecond : Edit.createDirectory current name second.volume = Edit.enact verdict second.volume :=
        hverdict second.volume h.root_eq
      unfold State.ensureDirectories
      dsimp only
      rw [hfirst, hsecond, h.root_eq]
      by_cases hthere : first.volume.root.exists? (Path.resolve current name)
      · rw [if_pos hthere, if_pos hthere]
        exact ih h _
      rw [if_neg hthere, if_neg hthere]
      obtain ⟨store, rfl⟩ := h
      cases verdict with
      | error e => exact ⟨store, rfl⟩
      | ok changed =>
          cases changed with
          | none => exact ih ⟨store, rfl⟩ _
          | some root => exact ih ⟨store.carryOut (.files root), rfl⟩ _

theorem standIn (h : first.Alike second) (home start : String) :
    (first.standIn home start).Alike (second.standIn home start) := by
  unfold State.standIn
  rw [h.root_eq]
  obtain ⟨store, rfl⟩ := h
  cases first.volume.root.changePath home start with
  | error e => exact ⟨store, rfl⟩
  | ok path => exact ⟨store, rfl⟩

theorem settled (h : first.Alike second) : first.settled.Alike second.settled := by
  obtain ⟨store, rfl⟩ := h
  exact ⟨store, rfl⟩

theorem atTime (h : first.Alike second) (now : Moment) : (first.atTime now).Alike (second.atTime now) := by
  obtain ⟨store, rfl⟩ := h
  exact ⟨store, rfl⟩

end Alike

theorem restore_alike (h : store.ReadAlike other) (options : Options) (now : Moment) :
    (restore options now store).Alike (restore options now other) :=
  (((opened_alike h options now).foldl_addAlias _).ensureDirectories _ _).standIn _ _

end State

/-! ## Lines of input -/

namespace Shell

/-- What each line of input gives, with the session and the tree after it. -/
def trace : List (Moment × String) → Shell → List (Result × Session × Node)
  | [], _ => []
  | input :: inputs, shell =>
    let (result, next) := (shell.atTime input.1).exec input.2
    (result, next.state.session, next.state.volume.root) :: next.trace inputs

variable {first second shell : Shell}

theorem trace_cons (input : Moment × String) (inputs : List (Moment × String)) (shell : Shell) :
    shell.trace (input :: inputs) =
      (((shell.atTime input.1).exec input.2).1, ((shell.atTime input.1).exec input.2).2.state.session,
        ((shell.atTime input.1).exec input.2).2.state.volume.root) ::
        ((shell.atTime input.1).exec input.2).2.trace inputs := by
  simp only [trace]

theorem store_settle (state : State) : (settle state).1.store = state.volume.store := rfl

theorem saves_settle (state : State) : (settle state).2 = state.volume.journal := rfl

theorem exec_alike (h : first.state.Alike second.state) (line : String) :
    (second.exec line).1 = (first.exec line).1 ∧
      (first.exec line).2.state.Alike (second.exec line).2.state := by
  unfold exec
  dsimp only
  generalize String.ofList (Text.trim line.toList) = line
  obtain ⟨hlines, halike⟩ := (Interpreter.execute_within .standard line).blind (h.record line)
  generalize Interpreter.execute .standard line (first.state.record line) = ran at hlines halike ⊢
  generalize Interpreter.execute .standard line (second.state.record line) = other at hlines halike ⊢
  by_cases hempty : line.isEmpty
  · rw [if_pos hempty, if_pos hempty]
    exact ⟨rfl, h⟩
  · rw [if_neg hempty, if_neg hempty]
    refine ⟨?_, halike.settled⟩
    change Result.mk other.1 other.2.volume.journal = Result.mk ran.1 ran.2.volume.journal
    rw [hlines, halike.journal_eq]

theorem trace_alike (h : first.state.Alike second.state) (inputs : List (Moment × String)) :
    second.trace inputs = first.trace inputs := by
  induction inputs generalizing first second with
  | nil => rfl
  | cons input inputs ih =>
      have hlater : (first.atTime input.1).state.Alike (second.atTime input.1).state := h.atTime input.1
      obtain ⟨hresult, halike⟩ := exec_alike hlater input.2
      rw [trace_cons, trace_cons, hresult, ih halike, halike.session_eq, halike.root_eq]

/-! ## What becomes of the stores -/

/-- What a shell has saved at its start is what it tells. -/
theorem store_start (options : Options) (now : Moment) (store : Store) :
    (start options now store).1.store = store.carryOutAll (start options now store).2 := by
  obtain ⟨ready, hsteps, hrestore⟩ := State.steps_restore options now store
  obtain ⟨saves, hjournal, hstore, _⟩ := hsteps.frame.saves
  have hready : (State.restore options now store).volume = ready.volume := by
    rcases hrestore with hrestore | ⟨path, hrestore⟩ <;> rw [hrestore]
  unfold start
  rw [store_settle, saves_settle, hready, hjournal, hstore, Store.carryOutAll_append]
  unfold State.opened Volume.restore
  dsimp only
  split <;> rfl

/-- A line leaves the store with the saves that it tells. -/
theorem store_exec (h : shell.state.volume.journal = []) (line : String) :
    (shell.exec line).2.store = shell.store.carryOutAll (shell.exec line).1.saves := by
  unfold exec
  dsimp only
  generalize String.ofList (Text.trim line.toList) = line
  split
  · rfl
  · obtain ⟨asked, hasked, hrecorded, _⟩ := (State.Frame.setHistory
      (Session.recorded line shell.state.session.history) shell.state).saves
    have hran := (Interpreter.execute_within .standard line).steps (shell.state.record line)
    obtain ⟨saves, hsaves, hstore, _⟩ := hran.frame.saves
    change (Interpreter.execute .standard line (shell.state.record line)).2.volume.store =
      shell.state.volume.store.carryOutAll
        (Interpreter.execute .standard line (shell.state.record line)).2.volume.journal
    rw [hstore, hsaves, State.record, hasked, hrecorded, h, List.nil_append, Store.carryOutAll_append]

theorem store_run (h : shell.state.volume.journal = []) (inputs : List (Moment × String)) :
    (shell.run inputs).store = shell.store.carryOutAll ((shell.trace inputs).flatMap (·.1.saves)) := by
  induction inputs generalizing shell with
  | nil => rfl
  | cons input inputs ih =>
      have hlater : (shell.atTime input.1).state.volume.journal = [] := h
      have hstore : (shell.atTime input.1).store = shell.store := rfl
      rw [run_cons, ih (journal_exec hlater input.2), store_exec hlater, hstore, trace_cons,
        List.flatMap_cons, Store.carryOutAll_append]

/-- Two shells that start over stores that read alike begin with the same session and the same tree, and
every line prints the same in both and leaves the same session and the same tree, whichever of the saves
fail in either store.  They attempt the same saves, and each store is at every time what those saves have
made of it. -/
theorem failed_saves_unseen {store other : Store} (h : store.ReadAlike other) (options : Options)
    (now : Moment) (inputs : List (Moment × String)) :
    let first := (start options now store).1
    let second := (start options now other).1
    let saves := (start options now store).2 ++ (first.trace inputs).flatMap (·.1.saves)
    second.state.session = first.state.session ∧ second.state.volume.root = first.state.volume.root ∧
      (start options now other).2 = (start options now store).2 ∧
      second.trace inputs = first.trace inputs ∧
      (first.run inputs).store = store.carryOutAll saves ∧
      (second.run inputs).store = other.carryOutAll saves := by
  intro first second saves
  have hrestored := State.restore_alike h options now
  have halike : (start options now store).1.state.Alike (start options now other).1.state := hrestored.settled
  have hsaves : (start options now other).2 = (start options now store).2 := by
    unfold start
    rw [saves_settle, saves_settle, hrestored.journal_eq]
  have htrace := trace_alike halike inputs
  have hstore := store_run (journal_start options now store) inputs
  have hother := store_run (journal_start options now other) inputs
  rw [store_start, ← Store.carryOutAll_append] at hstore
  rw [store_start, ← Store.carryOutAll_append, htrace, hsaves] at hother
  exact ⟨halike.session_eq, halike.root_eq, hsaves, htrace, hstore, hother⟩

/-- The second store refuses every save, so it keeps what the first store loses. -/
theorem failed_saves_unseen_full :
    let found : Entries String :=
      [(Save.filesKey, (Save.files .empty).text), (Save.aliasesKey, "\x7b\"ll\":\"ls\"\x7d")]
    let store : Store := .memory ⟨found, [], []⟩
    let other : Store := .memory ⟨found, [], Save.keys⟩
    let inputs := [(Moment.epoch, "mkdir d && alias a=b"), (.epoch, "cat d")]
    let options : Options := { home := "/" }
    let first := (start options .epoch store).1
    let second := (start options .epoch other).1
    store.ReadAlike other ∧ second.trace inputs = first.trace inputs ∧
      (first.run inputs).store.read? Save.aliasesKey = some "\x7b\"a\":\"b\",\"ll\":\"ls\"\x7d" ∧
      (second.run inputs).store.read? Save.aliasesKey = some "\x7b\"ll\":\"ls\"\x7d" := by
  intro found store other inputs options first second
  have hread : store.ReadAlike other := .memory found [] Save.keys
  obtain ⟨_, _, _, htrace, _, _⟩ := failed_saves_unseen hread options .epoch inputs
  exact ⟨hread, htrace, by decide +kernel, by decide +kernel⟩

end Shell

end VirtualShell
