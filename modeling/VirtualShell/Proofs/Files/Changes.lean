import VirtualShell.Proofs.Files.Edits

/-! # Changes are whole

A call of one of the eight edits either leaves the volume as it was, or attempts exactly one save, of
the tree that it leaves behind: the old one with one node put in, taken out, moved or given another
name.  Which of the two happens is decided by the tree alone.
-/

namespace VirtualShell

inductive Change
  | createFile (current name content : String)
  | createDirectory (current name : String)
  | deleteFile (current name : String)
  | deleteDirectory (current name : String)
  | copyFile (current source destination : String)
  | copyDirectory (current source destination : String)
  | move (current source destination : String)
  | rename (current old new : String)
deriving DecidableEq, Repr

namespace Change

def edit : Change → Edit Unit
  | createFile current name content => .createFile current name content
  | createDirectory current name => .createDirectory current name
  | deleteFile current name => .deleteFile current name
  | deleteDirectory current name => .deleteDirectory current name
  | copyFile current source destination => .copyFile current source destination
  | copyDirectory current source destination => .copyDirectory current source destination
  | move current source destination => .move current source destination
  | rename current old new => .rename current old new

/-- A move that lands at the place of its source. -/
def Stays (root : Node) : Change → Prop
  | move current source destination =>
    root.landing (Path.segments (Path.resolve current source))
      (Path.segments (Path.resolve current destination)) =
        Path.segments (Path.resolve current source)
  | _ => False

end Change

namespace Edit

variable {α : Type}

/-! ## Edits that only look at the tree -/

/-- What an edit makes of a tree: an error, no change, or another tree. -/
abbrev Verdict := Except FileError (Option Node)

/-- An error leaves the volume as it is, and another tree is saved once. -/
def enact : Verdict → Edit Unit
  | .error e => throw e
  | .ok none => pure ()
  | .ok (some root) => modify (Volume.saved root)

/-- The tree alone tells what the edit does. -/
def Decided (edit : Edit Unit) : Prop :=
  ∀ root, ∃ verdict : Verdict, ∀ volume : Volume, volume.root = root → edit volume = enact verdict volume

theorem decided_throw (e : FileError) : Decided (throw e) := fun _ => ⟨.error e, fun _ _ => rfl⟩

theorem decided_commit (path : String) (entries : Entries Node) :
    Decided (setEntries path entries >>= fun _ => save) := by
  intro root
  refine ⟨.ok (some (root.withEntries entries (Path.segments path))), ?_⟩
  rintro volume rfl
  rfl

theorem decided_ask_bind {question : Node → Except FileError α} {next : α → Edit Unit}
    (h : ∀ a, Decided (next a)) : Decided (ask question >>= next) := by
  intro root
  cases hanswer : question root with
  | error e =>
      refine ⟨.error e, ?_⟩
      rintro volume rfl
      rw [ask_bind, hanswer]
      rfl
  | ok answer =>
      obtain ⟨verdict, hverdict⟩ := h answer root
      refine ⟨verdict, ?_⟩
      rintro volume rfl
      rw [ask_bind, hanswer]
      exact hverdict volume rfl

theorem decided_guard {c : Prop} [Decidable c] {e : FileError} {next : Edit Unit} (h : Decided next) :
    Decided (if c then (throw e : Edit PUnit) >>= fun _ => next else next) := by
  split
  · exact decided_throw e
  · exact h

theorem create_decided (current name : String) (node : Node) : Decided (create current name node) := by
  unfold create
  exact decided_guard (decided_ask_bind fun entries => decided_guard (decided_commit _ _))

theorem deleteFile_decided (current name : String) : Decided (deleteFile current name) := by
  unfold deleteFile
  refine decided_guard (decided_ask_bind fun entries => ?_)
  split
  · exact decided_throw _
  · exact decided_throw _
  · exact decided_commit _ _

theorem deleteDirectory_decided (current name : String) : Decided (deleteDirectory current name) := by
  unfold deleteDirectory
  refine decided_guard (decided_ask_bind fun entries => ?_)
  split
  · exact decided_throw _
  · exact decided_throw _
  · exact decided_throw _
  · exact decided_commit _ _

theorem copyFile_decided (current source destination : String) :
    Decided (copyFile current source destination) := by
  unfold copyFile
  refine decided_ask_bind fun content => decided_ask_bind fun target => ?_
  refine decided_guard (decided_ask_bind fun entries => ?_)
  split
  · exact decided_throw _
  · exact decided_commit _ _

theorem copyDirectory_decided (current source destination : String) :
    Decided (copyDirectory current source destination) := by
  unfold copyDirectory
  refine decided_ask_bind fun copied => decided_guard (decided_ask_bind fun target => ?_)
  exact decided_guard (decided_ask_bind fun entries => decided_guard (decided_commit _ _))

theorem rename_decided (current old new : String) : Decided (rename current old new) := by
  unfold rename
  exact decided_ask_bind fun entries => decided_guard (decided_guard (decided_commit _ _))

/-- A move takes its node away before it looks at the new directory again; that second look finds
what the first one found. -/
theorem move_decided (current source destination : String) :
    Decided (move current source destination) := by
  intro root
  have hmove := move_apply current source destination
  dsimp only at hmove
  generalize Path.segments (Path.resolve current source) = start at hmove
  generalize Path.segments (Path.resolve current destination) = goal at hmove
  by_cases hne : start = []
  · refine ⟨.error (.permissionDenied "/"), ?_⟩
    rintro volume rfl
    rw [hmove, if_pos hne]
    rfl
  cases hnode : root.lookup start with
  | none =>
      refine ⟨.error (.noSuchEntry (Path.ofSegments start)), ?_⟩
      rintro volume rfl
      rw [hmove, if_neg hne, hnode]
      rfl
  | some node =>
      by_cases hinside : start <+: (root.landing start goal).dropLast
      · refine ⟨.error (.invalidMove (Path.ofSegments start) (Path.ofSegments goal)), ?_⟩
        rintro volume rfl
        rw [hmove, if_neg hne, hnode]
        exact if_pos hinside
      by_cases hstay : root.landing start goal = start
      · refine ⟨.ok none, ?_⟩
        rintro volume rfl
        rw [hmove, if_neg hne, hnode]
        dsimp only
        rw [if_neg hinside, if_pos hstay]
        rfl
      cases hgoal : root.entriesAt (Path.ofSegments (root.landing start goal).dropLast) with
      | error e =>
          refine ⟨.error e, ?_⟩
          rintro volume rfl
          rw [hmove, if_neg hne, hnode]
          dsimp only
          rw [if_neg hinside, if_neg hstay, hgoal]
          rfl
      | ok entries =>
          refine ⟨.ok (some ((root.removeAt start).insertAt (root.landing start goal) node)), ?_⟩
          rintro volume rfl
          rw [hmove, if_neg hne, hnode]
          dsimp only
          rw [if_neg hinside, if_neg hstay, hgoal]
          rfl

def Atomic (edit : Edit α) : Prop := ∀ volume e after, edit volume = .error e after → after = volume

theorem Decided.atomic {edit : Edit Unit} (h : edit.Decided) : edit.Atomic := by
  intro volume e after hfailed
  obtain ⟨verdict, hverdict⟩ := h volume.root
  rw [hverdict volume rfl] at hfailed
  cases verdict with
  | error cause =>
      cases hfailed
      rfl
  | ok changed => cases changed <;> cases hfailed

end Edit

namespace Change

theorem edit_decided (change : Change) : change.edit.Decided := by
  cases change with
  | createFile current name content => exact Edit.create_decided current name _
  | createDirectory current name => exact Edit.create_decided current name _
  | deleteFile current name => exact Edit.deleteFile_decided current name
  | deleteDirectory current name => exact Edit.deleteDirectory_decided current name
  | copyFile current source destination => exact Edit.copyFile_decided current source destination
  | copyDirectory current source destination =>
      exact Edit.copyDirectory_decided current source destination
  | move current source destination => exact Edit.move_decided current source destination
  | rename current old new => exact Edit.rename_decided current old new

theorem edit_atomic (change : Change) : change.edit.Atomic := change.edit_decided.atomic

/-! ## Edits that succeed -/

/-- What a change that is done can make of a tree. -/
inductive Effect (root : Node) (change : Change) : Node → Prop
  | create {names : List String} {node : Node} (known : ∀ name ∈ names, Path.IsName name)
      (bare : node = .empty ∨ ∃ content, node = .file content) :
      Effect root change (root.insertAt names node)
  | delete (names : List String) : Effect root change (root.removeAt names)
  | copy {start names : List String} {node : Node} (known : ∀ name ∈ names, Path.IsName name)
      (found : root.lookup start = some node) : Effect root change (root.insertAt names node)
  | move {start names : List String} {node : Node} (known : ∀ name ∈ names, Path.IsName name)
      (found : root.lookup start = some node) :
      Effect root change ((root.removeAt start).insertAt names node)
  | rename {current old new : String} {entries : Entries Node}
      (called : change = rename current old new)
      (found : root.lookup (Path.segments current) = some (.directory entries))
      (free : entries.get? new = none) :
      Effect root change (root.withEntries (entries.rename old new) (Path.segments current))

/-- A change that succeeds stays where it is or saves the tree it makes. -/
theorem effect_of_edit_eq_ok {change : Change} {volume after : Volume} {u : Unit}
    (h : change.edit volume = .ok u after) :
    (change.Stays volume.root ∧ after = volume) ∨
      ¬ change.Stays volume.root ∧ ∃ root, change.Effect volume.root root ∧ after = volume.saved root := by
  cases change with
  | createFile current name content =>
      dsimp only [edit] at h
      obtain ⟨_, _, _, hafter⟩ := Edit.create_eq_ok_iff.mp h
      exact .inr ⟨id, _, .create (fun _ => Path.isName_of_mem_segments) (.inr ⟨content, rfl⟩), hafter⟩
  | createDirectory current name =>
      dsimp only [edit] at h
      obtain ⟨_, _, _, hafter⟩ := Edit.create_eq_ok_iff.mp h
      exact .inr ⟨id, _, .create (fun _ => Path.isName_of_mem_segments) (.inl rfl), hafter⟩
  | deleteFile current name =>
      dsimp only [edit] at h
      obtain ⟨_, _, hafter⟩ := Edit.deleteFile_eq_ok_iff.mp h
      exact .inr ⟨id, _, .delete _, hafter⟩
  | deleteDirectory current name =>
      dsimp only [edit] at h
      obtain ⟨_, _, hafter⟩ := Edit.deleteDirectory_eq_ok_iff.mp h
      exact .inr ⟨id, _, .delete _, hafter⟩
  | copyFile current source destination =>
      dsimp only [edit] at h
      obtain ⟨_, _, rfl, hfound, _, _, _, hafter⟩ := Edit.copyFile_eq_ok_iff.mp h
      exact .inr ⟨id, _, .copy (fun _ => Node.isName_of_mem_landing) hfound, hafter⟩
  | copyDirectory current source destination =>
      dsimp only [edit] at h
      obtain ⟨_, _, rfl, hfound, _, _, _, hafter⟩ := Edit.copyDirectory_eq_ok_iff.mp h
      exact .inr ⟨id, _, .copy (fun _ => Node.isName_of_mem_landing) hfound, hafter⟩
  | move current source destination =>
      dsimp only [edit] at h
      obtain ⟨_, _, _, rfl, rfl, hfound, _, _, ⟨hstay, hafter⟩ | ⟨hstay, _, hafter⟩⟩ :=
        Edit.of_move_eq_ok h
      · exact .inl ⟨hstay, hafter⟩
      · exact .inr ⟨hstay, _, .move (fun _ => Node.isName_of_mem_landing) hfound, hafter⟩
  | rename current old new =>
      dsimp only [edit] at h
      obtain ⟨_, hfound, _, hfree, hafter⟩ := Edit.rename_eq_ok_iff.mp h
      exact .inr ⟨id, _, .rename rfl hfound hfree, hafter⟩

theorem of_edit_eq_ok {change : Change} {volume after : Volume} {u : Unit}
    (h : change.edit volume = .ok u after) :
    (change.Stays volume.root ∧ after = volume) ∨
      ¬ change.Stays volume.root ∧ ∃ root, after = volume.saved root :=
  (effect_of_edit_eq_ok h).imp_right fun ⟨hmoves, root, _, hafter⟩ => ⟨hmoves, root, hafter⟩

/-- A refused change leaves the tree and the store alone.  A change that is done attempts one save more,
of the tree as it is then; only a move that stays where it is changes and saves nothing. -/
theorem edit_whole (change : Change) (volume : Volume) :
    match change.edit volume with
    | .error _ after => after = volume
    | .ok _ after =>
      (change.Stays volume.root → after = volume) ∧
        (¬ change.Stays volume.root →
          after.journal = volume.journal ++ [⟨Save.filesKey, after.root.blob⟩] ∧
            after.store = volume.store.carryOut ⟨Save.filesKey, after.root.blob⟩) := by
  cases hrun : change.edit volume with
  | error e after => exact edit_atomic change volume e after hrun
  | ok u after =>
      rcases of_edit_eq_ok hrun with ⟨hstays, hafter⟩ | ⟨hstays, root, hafter⟩
      · exact ⟨fun _ => hafter, fun hmoves => absurd hstays hmoves⟩
      · refine ⟨fun hstay => absurd hstay hstays, fun _ => ?_⟩
        rw [hafter]
        exact ⟨rfl, rfl⟩

end Change

end VirtualShell
