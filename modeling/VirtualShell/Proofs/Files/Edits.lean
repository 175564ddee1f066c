import VirtualShell.Files.Edit
import VirtualShell.Proofs.Paths.Segments
import VirtualShell.Proofs.Tree.Places

/-! # What each edit does

Each edit that succeeds puts one node at a place, takes one away or renames one entry, after checks
that are listed with it, and asks for one save of the new tree.
-/

namespace VirtualShell

namespace Node

theorem at?_eq_ok_iff {root node : Node} {path : String} :
    root.at? path = .ok node ↔ root.lookup (Path.segments path) = some node := by
  unfold at?
  cases root.lookup (Path.segments path) <;> simp

theorem at?_ofSegments_eq_ok_iff {root node : Node} {names : List String}
    (h : ∀ name ∈ names, Path.IsName name) :
    root.at? (Path.ofSegments names) = .ok node ↔ root.lookup names = some node := by
  rw [at?_eq_ok_iff, Path.segments_ofSegments h]

theorem exists?_eq_true_iff {root : Node} {path : String} :
    root.exists? path = true ↔ root.lookup (Path.segments path) ≠ none := by
  rw [exists?, Option.isSome_iff_ne_none]

theorem exists?_eq_false_iff {root : Node} {path : String} :
    root.exists? path = false ↔ root.lookup (Path.segments path) = none := by
  rw [exists?, Option.isSome_eq_false_iff, Option.isNone_iff_eq_none]

theorem entriesAt_eq_ok_iff {root : Node} {path : String} {entries : Entries Node} :
    root.entriesAt path = .ok entries ↔
      root.lookup (Path.segments path) = some (.directory entries) := by
  unfold entriesAt at?
  cases root.lookup (Path.segments path) with
  | none => simp
  | some node => cases node <;> simp

theorem contentOf_eq_ok_iff {root : Node} {current name content : String} :
    root.contentOf current name = .ok content ↔
      root.lookup (Path.segments (Path.resolve current name)) = some (.file content) := by
  rw [← at?_eq_ok_iff]
  dsimp only [contentOf]
  cases root.at? (Path.resolve current name) with
  | error e => simp
  | ok node => cases node <;> simp

section Directories

variable {root : Node}

def HasDirectory (root : Node) (path : String) : Prop := ∃ entries, root.entriesAt path = .ok entries

theorem hasDirectory_iff_labelAt {path : String} :
    root.HasDirectory path ↔ root.labelAt (Path.segments path) = some none := by
  unfold HasDirectory
  simp only [entriesAt_eq_ok_iff, labelAt_eq_directory_iff]

theorem hasDirectory_congr {path other : String} (h : Path.segments path = Path.segments other) :
    root.HasDirectory path ↔ root.HasDirectory other := by
  rw [hasDirectory_iff_labelAt, hasDirectory_iff_labelAt, h]

theorem changePath_eq_ok_iff {current target path : String} :
    root.changePath current target = .ok path ↔
      root.HasDirectory (Path.resolve current target) ∧
        Path.canonical (Path.resolve current target) = path := by
  unfold changePath HasDirectory
  dsimp only
  cases root.entriesAt (Path.resolve current target) with
  | error e => simp [Except.map]
  | ok entries => simp [Except.map]

end Directories

/-! The same in terms of the directory and the name of a path. -/

section Named

variable {root : Node} {path : String} {entries : Entries Node}

theorem lookup_segments (hne : Path.segments path ≠ [])
    (h : root.lookup (Path.segments path).dropLast = some (.directory entries)) :
    root.lookup (Path.segments path) = entries.get? (Path.base path) := by
  rw [← Path.dropLast_append_base hne, lookup_append_of_some h, lookup_cons_directory]
  cases entries.get? (Path.base path) <;> rfl

theorem lookup_segments_eq_some_iff {node : Node} (hne : Path.segments path ≠ []) :
    root.lookup (Path.segments path) = some node ↔
      ∃ entries : Entries Node, root.lookup (Path.segments path).dropLast = some (.directory entries) ∧
        entries.get? (Path.base path) = some node := by
  constructor
  · intro hlookup
    have hbind := hlookup
    rw [← Path.dropLast_append_base hne, lookup_append] at hbind
    obtain ⟨parent, hparent, hname⟩ := Option.bind_eq_some_iff.mp hbind
    cases parent with
    | file content => simp at hname
    | directory entries => exact ⟨entries, hparent, (lookup_segments hne hparent).symm.trans hlookup⟩
  · rintro ⟨entries, hentries, hget⟩
    rw [lookup_segments hne hentries, hget]

theorem insertAt_segments (hne : Path.segments path ≠ [])
    (h : root.lookup (Path.segments path).dropLast = some (.directory entries)) (node : Node) :
    root.insertAt (Path.segments path) node =
      root.withEntries (entries.put (Path.base path) node) (Path.segments path).dropLast := by
  simp [insertAt, h, Path.getLast?_segments hne]

theorem removeAt_segments (hne : Path.segments path ≠ [])
    (h : root.lookup (Path.segments path).dropLast = some (.directory entries)) :
    root.removeAt (Path.segments path) =
      root.withEntries (entries.erase (Path.base path)) (Path.segments path).dropLast := by
  simp [removeAt, h, Path.getLast?_segments hne]

end Named

/-- The place that a copy or a move of what stands at `source` reaches: in a directory it keeps its
name, any other destination is the place itself. -/
def landing (root : Node) (source goal : List String) : List String :=
  match root.lookup goal with
  | some (directory _) => goal ++ source.getLast?.toList
  | _ => goal

theorem mem_landing {root : Node} {source goal : List String} {name : String}
    (h : name ∈ root.landing source goal) : name ∈ source ∨ name ∈ goal := by
  unfold landing at h
  split at h
  · rcases List.mem_append.mp h with hgoal | hlast
    · exact .inr hgoal
    · exact .inl (List.mem_of_getLast? (Option.mem_toList.mp hlast))
  · exact .inr h

theorem isName_of_mem_landing {root : Node} {source goal name : String}
    (h : name ∈ root.landing (Path.segments source) (Path.segments goal)) : Path.IsName name :=
  (mem_landing h).elim Path.isName_of_mem_segments Path.isName_of_mem_segments

end Node

def Volume.saved (root : Node) (volume : Volume) : Volume :=
  { volume with root }.attempt (.files root)

@[simp] theorem Volume.root_saved (root : Node) (volume : Volume) : (volume.saved root).root = root := rfl

namespace Edit

variable {α β : Type}

/-! ## Steps of an edit -/

theorem ask_bind (question : Node → Except FileError α) (next : α → Edit β) (volume : Volume) :
    (ask question >>= next) volume =
      match question volume.root with
      | .ok answer => next answer volume
      | .error e => .error e volume := by
  change EStateM.bind (ask question) next volume = _
  unfold EStateM.bind ask
  cases question volume.root <;> rfl

theorem ask_bind_eq_ok_iff {question : Node → Except FileError α} {next : α → Edit β}
    {volume after : Volume} {b : β} :
    (ask question >>= next) volume = .ok b after ↔
      ∃ answer, question volume.root = .ok answer ∧ next answer volume = .ok b after := by
  rw [ask_bind]
  cases question volume.root <;> simp

theorem throw_bind (e : FileError) (next : α → Edit β) (volume : Volume) :
    ((throw e : Edit α) >>= next) volume = .error e volume := rfl

theorem throw_ne_ok {e : FileError} {volume after : Volume} {a : α} :
    (throw e : Edit α) volume ≠ .ok a after := by
  rintro ⟨⟩

theorem guard_eq_ok_iff {c : Prop} [Decidable c] {e : FileError} {next : Edit β}
    {volume after : Volume} {b : β} :
    (if c then (throw e : Edit PUnit) >>= fun _ => next else next) volume = .ok b after ↔
      ¬ c ∧ next volume = .ok b after := by
  split
  · rename_i hc
    rw [throw_bind]
    simp [hc]
  · rename_i hc
    simp [hc]

theorem setEntries_bind (path : String) (entries : Entries Node) (next : Unit → Edit β)
    (volume : Volume) :
    (setEntries path entries >>= next) volume =
      next () { volume with root := volume.root.withEntries entries (Path.segments path) } := rfl

theorem commit_eq_ok_iff {path : String} {entries : Entries Node} {volume after : Volume} {u : Unit} :
    (setEntries path entries >>= fun _ => save) volume = .ok u after ↔
      after = volume.saved (volume.root.withEntries entries (Path.segments path)) := by
  change EStateM.Result.ok () (volume.saved _) = .ok () after ↔ _
  simp [eq_comm]

theorem put_eq_ok_iff {path : String} {entries : Entries Node} {volume after : Volume} {u : Unit}
    (hne : Path.segments path ≠ [])
    (h : volume.root.lookup (Path.segments path).dropLast = some (.directory entries)) (node : Node) :
    (setEntries (Path.parent path) (entries.put (Path.base path) node) >>= fun _ => save) volume =
        .ok u after ↔
      after = volume.saved (volume.root.insertAt (Path.segments path) node) := by
  rw [commit_eq_ok_iff, Node.insertAt_segments hne h, Path.segments_parent]

theorem erase_eq_ok_iff {path : String} {entries : Entries Node} {volume after : Volume} {u : Unit}
    (hne : Path.segments path ≠ [])
    (h : volume.root.lookup (Path.segments path).dropLast = some (.directory entries)) :
    (setEntries (Path.parent path) (entries.erase (Path.base path)) >>= fun _ => save) volume =
        .ok u after ↔
      after = volume.saved (volume.root.removeAt (Path.segments path)) := by
  rw [commit_eq_ok_iff, Node.removeAt_segments hne h, Path.segments_parent]

theorem ask_parent_eq_ok_iff {path : String} {next : Entries Node → Edit β} {volume after : Volume}
    {b : β} :
    (ask (·.entriesAt (Path.parent path)) >>= next) volume = .ok b after ↔
      ∃ entries, volume.root.lookup (Path.segments path).dropLast = some (.directory entries) ∧
        next entries volume = .ok b after := by
  rw [ask_bind_eq_ok_iff]
  simp only [Node.entriesAt_eq_ok_iff, Path.segments_parent]

/-! ## Creating and deleting -/

theorem create_eq_ok_iff {current name : String} {node : Node} {volume after : Volume} {u : Unit} :
    create current name node volume = .ok u after ↔
      Path.segments (Path.resolve current name) ≠ [] ∧
      (∃ entries, volume.root.lookup (Path.segments (Path.resolve current name)).dropLast =
        some (.directory entries)) ∧
      volume.root.lookup (Path.segments (Path.resolve current name)) = none ∧
      after = volume.saved
        (volume.root.insertAt (Path.segments (Path.resolve current name)) node) := by
  unfold create
  simp only [guard_eq_ok_iff, ask_parent_eq_ok_iff, List.isEmpty_iff, Bool.not_eq_true,
    Option.isSome_eq_false_iff, Option.isNone_iff_eq_none]
  refine and_congr_right fun hne => ?_
  rw [← exists_and_right]
  refine exists_congr fun entries => and_congr_right fun hentries => ?_
  rw [put_eq_ok_iff hne hentries, Node.lookup_segments hne hentries]

theorem deleteFile_eq_ok_iff {current name : String} {volume after : Volume} {u : Unit} :
    deleteFile current name volume = .ok u after ↔
      Path.segments (Path.resolve current name) ≠ [] ∧
      (∃ content, volume.root.lookup (Path.segments (Path.resolve current name)) =
        some (.file content)) ∧
      after = volume.saved (volume.root.removeAt (Path.segments (Path.resolve current name))) := by
  unfold deleteFile
  simp only [guard_eq_ok_iff, ask_parent_eq_ok_iff, List.isEmpty_iff]
  refine and_congr_right fun hne => ?_
  simp only [Node.lookup_segments_eq_some_iff hne]
  constructor
  · rintro ⟨entries, hentries, h⟩
    cases hget : Entries.get? (Path.base (Path.resolve current name)) entries with
    | none => exact (throw_ne_ok (hget ▸ h)).elim
    | some node =>
        rw [hget] at h
        cases node with
        | directory inner => exact (throw_ne_ok h).elim
        | file content =>
            exact ⟨⟨content, entries, hentries, hget⟩, (erase_eq_ok_iff hne hentries).mp h⟩
  · rintro ⟨⟨content, entries, hentries, hget⟩, hafter⟩
    refine ⟨entries, hentries, ?_⟩
    rw [hget]
    exact (erase_eq_ok_iff hne hentries).mpr hafter

theorem deleteDirectory_eq_ok_iff {current name : String} {volume after : Volume} {u : Unit} :
    deleteDirectory current name volume = .ok u after ↔
      Path.segments (Path.resolve current name) ≠ [] ∧
      volume.root.lookup (Path.segments (Path.resolve current name)) = some .empty ∧
      after = volume.saved (volume.root.removeAt (Path.segments (Path.resolve current name))) := by
  unfold deleteDirectory
  simp only [guard_eq_ok_iff, ask_parent_eq_ok_iff, List.isEmpty_iff]
  refine and_congr_right fun hne => ?_
  simp only [Node.lookup_segments_eq_some_iff hne]
  constructor
  · rintro ⟨entries, hentries, h⟩
    cases hget : Entries.get? (Path.base (Path.resolve current name)) entries with
    | none => exact (throw_ne_ok (hget ▸ h)).elim
    | some node =>
        rw [hget] at h
        match node with
        | .file _ => exact (throw_ne_ok h).elim
        | .directory (_ :: _) => exact (throw_ne_ok h).elim
        | .directory [] =>
            exact ⟨⟨entries, hentries, hget⟩, (erase_eq_ok_iff hne hentries).mp h⟩
  · rintro ⟨⟨entries, hentries, hget⟩, hafter⟩
    refine ⟨entries, hentries, ?_⟩
    rw [hget]
    exact (erase_eq_ok_iff hne hentries).mpr hafter

/-! ## Renaming -/

theorem rename_eq_ok_iff {current old new : String} {volume after : Volume} {u : Unit} :
    rename current old new volume = .ok u after ↔
      ∃ entries : Entries Node,
        volume.root.lookup (Path.segments current) = some (.directory entries) ∧
        entries.get? old ≠ none ∧ entries.get? new = none ∧
        after = volume.saved
          (volume.root.withEntries (entries.rename old new) (Path.segments current)) := by
  unfold rename
  simp only [guard_eq_ok_iff, ask_bind_eq_ok_iff, commit_eq_ok_iff, Node.entriesAt_eq_ok_iff,
    Option.isNone_iff_eq_none, Bool.not_eq_true, Option.isSome_eq_false_iff, ne_eq]

/-! ## Copying -/

def landingPath (root : Node) (path goal : String) : String :=
  match root.at? goal with
  | .ok (.directory _) => Path.child goal (Path.base path)
  | _ => goal

theorem segments_landingPath (root : Node) (path goal : String) :
    Path.segments (landingPath root path goal) =
      root.landing (Path.segments path) (Path.segments goal) := by
  unfold landingPath Node.landing Node.at?
  cases root.lookup (Path.segments goal) with
  | none => rfl
  | some node =>
      cases node with
      | file content => rfl
      | directory entries => simp only [Path.segments_child, Path.segments_base]

theorem landing_eq_ok_iff {root : Node} {path goal target : String} :
    (match root.at? goal with
      | .ok (.directory _) => .ok (Path.child goal (Path.base path))
      | _ => .ok goal : Except FileError String) = .ok target ↔ target = landingPath root path goal := by
  unfold landingPath
  cases root.at? goal with
  | error e => simp [eq_comm]
  | ok node => cases node <;> simp [eq_comm]

theorem copyFile_eq_ok_iff {current source destination : String} {volume after : Volume} {u : Unit} :
    copyFile current source destination volume = .ok u after ↔
      ∃ content target, target = volume.root.landing (Path.segments (Path.resolve current source))
          (Path.segments (Path.resolve current destination)) ∧
        volume.root.lookup (Path.segments (Path.resolve current source)) = some (.file content) ∧
        target ≠ [] ∧
        (∃ entries, volume.root.lookup target.dropLast = some (.directory entries)) ∧
        (∀ inner, volume.root.lookup target ≠ some (.directory inner)) ∧
        after = volume.saved (volume.root.insertAt target (.file content)) := by
  unfold copyFile
  simp only [ask_bind_eq_ok_iff, Node.contentOf_eq_ok_iff, guard_eq_ok_iff,
    Node.entriesAt_eq_ok_iff, Path.segments_parent, List.isEmpty_iff]
  refine exists_congr fun content => ?_
  rw [exists_eq_left, ← segments_landingPath]
  refine and_congr_right fun _ => ?_
  refine (exists_congr fun target => and_congr_left' landing_eq_ok_iff).trans ?_
  rw [exists_eq_left]
  generalize landingPath volume.root (Path.resolve current source) (Path.resolve current destination) =
    path
  refine and_congr_right fun hne => ?_
  rw [← exists_and_right]
  refine exists_congr fun entries => and_congr_right fun hentries => ?_
  rw [Node.lookup_segments hne hentries]
  cases hget : Entries.get? (Path.base path) entries with
  | none => simp [put_eq_ok_iff hne hentries]
  | some node =>
      cases node with
      | file _ => simp [put_eq_ok_iff hne hentries]
      | directory inner => simp [throw_ne_ok]

theorem freeLanding_eq_ok_iff {root : Node} {path goal target : String} :
    (match root.at? goal with
      | .ok (.directory _) => .ok (Path.child goal (Path.base path))
      | .ok (.file _) => .error (.alreadyExists goal)
      | .error _ => .ok goal : Except FileError String) = .ok target ↔
      (∀ content, root.at? goal ≠ .ok (.file content)) ∧ target = landingPath root path goal := by
  unfold landingPath
  cases root.at? goal with
  | error e => simp [eq_comm]
  | ok node => cases node <;> simp [eq_comm]

theorem copyDirectory_eq_ok_iff {current source destination : String} {volume after : Volume}
    {u : Unit} :
    copyDirectory current source destination volume = .ok u after ↔
      ∃ copied target, target = volume.root.landing (Path.segments (Path.resolve current source))
          (Path.segments (Path.resolve current destination)) ∧
        volume.root.lookup (Path.segments (Path.resolve current source)) = some (.directory copied) ∧
        target ≠ [] ∧
        (∃ entries, volume.root.lookup target.dropLast = some (.directory entries)) ∧
        volume.root.lookup target = none ∧
        after = volume.saved (volume.root.insertAt target (.directory copied)) := by
  unfold copyDirectory
  simp only [ask_bind_eq_ok_iff, Node.at?_eq_ok_iff, guard_eq_ok_iff, Node.entriesAt_eq_ok_iff,
    Path.segments_parent, List.isEmpty_iff]
  constructor
  · rintro ⟨copied, hcopied, hkind, target, htarget, hne, entries, hentries, hfree, hafter⟩
    obtain ⟨_, rfl⟩ := freeLanding_eq_ok_iff.mp htarget
    cases copied with
    | file content => simp [Node.isDirectory] at hkind
    | directory inner =>
        rw [Bool.not_eq_true, Option.isSome_eq_false_iff, Option.isNone_iff_eq_none] at hfree
        refine ⟨inner, _, rfl, hcopied, ?_⟩
        rw [← segments_landingPath, Node.lookup_segments hne hentries]
        exact ⟨hne, ⟨entries, hentries⟩, hfree, (put_eq_ok_iff hne hentries _).mp hafter⟩
  · rintro ⟨inner, target, rfl, hcopied, hne, ⟨entries, hentries⟩, hfree, hafter⟩
    have hgoal : ∀ content, volume.root.lookup
        (Path.segments (Path.resolve current destination)) ≠ some (.file content) := by
      intro content hfile
      simp [Node.landing, hfile] at hfree
    rw [← segments_landingPath] at hne hentries hfree hafter
    rw [Node.lookup_segments hne hentries] at hfree
    refine ⟨.directory inner, hcopied, by simp [Node.isDirectory], _,
      freeLanding_eq_ok_iff.mpr ⟨fun content => ?_, rfl⟩, hne, entries, hentries, by simp [hfree],
      (put_eq_ok_iff hne hentries _).mpr hafter⟩
    rw [ne_eq, Node.at?_eq_ok_iff]
    exact hgoal content

/-! ## Moving -/

theorem isAtOrBelow_ofSegments_iff {names top : List String} (hne : top ≠ [])
    (hnames : ∀ name ∈ names, Path.IsName name) (htop : ∀ name ∈ top, Path.IsName name) :
    isAtOrBelow (Path.ofSegments names) (Path.ofSegments top) = true ↔ top <+: names := by
  unfold isAtOrBelow
  rw [Bool.or_eq_true, decide_eq_true_iff, List.isPrefixOf_iff_prefix,
    Path.slash_prefix_ofSegments_iff hne htop hnames]
  constructor
  · rintro (heq | ⟨hbelow, _⟩)
    · exact Path.ofSegments_inj hnames htop heq ▸ List.prefix_rfl
    · exact hbelow
  · intro hbelow
    by_cases heq : top = names
    · exact .inl (by rw [heq])
    · exact .inr ⟨hbelow, heq⟩

/-- Where a move puts a node is the landing of the move, as a directory and a name. -/
theorem moveTarget_eq {path : String} (hne : Path.segments path ≠ []) (goal : String) (root : Node) :
    moveTarget (Path.base path) (Path.canonical goal) root =
      (Path.parent (landingPath root path (Path.canonical goal)),
        Path.base (landingPath root path (Path.canonical goal))) := by
  unfold moveTarget landingPath
  cases root.at? (Path.canonical goal) with
  | error e => rfl
  | ok node =>
      cases node with
      | file content => rfl
      | directory entries =>
          have hsegments : Path.segments (Path.child (Path.canonical goal) (Path.base path)) =
              Path.segments goal ++ [Path.base path] := by
            rw [Path.segments_child, Path.segments_base, Path.getLast?_segments hne,
              Path.segments_canonical, Option.toList_some]
          have hparent : Path.parent (Path.child (Path.canonical goal) (Path.base path)) =
              Path.canonical goal := by
            rw [Path.parent, hsegments, List.dropLast_concat, Path.canonical]
          have hbase : Path.base (Path.child (Path.canonical goal) (Path.base path)) =
              Path.base path := by
            rw [Path.base, hsegments, List.getLastD_concat]
          simp only [hparent, hbase]

theorem landing_ne_nil {root node : Node} {names : List String} (hne : names ≠ [])
    (h : root.lookup names = some node) (goal : List String) : root.landing names goal ≠ [] := by
  have hlast : names.getLast?.toList ≠ [] := by
    rw [List.getLast?_eq_some_getLast hne, Option.toList_some]
    exact List.cons_ne_nil _ _
  unfold Node.landing
  split
  · simp [hlast]
  · rename_i hgoal
    rintro rfl
    cases root with
    | file content =>
        obtain ⟨name, rest, rfl⟩ := List.exists_cons_of_ne_nil hne
        simp at h
    | directory entries => exact hgoal entries rfl

theorem parent_base_eq_iff {path other : String} (hpath : Path.segments path ≠ [])
    (hother : Path.segments other ≠ []) :
    Path.parent path = Path.parent other ∧ Path.base path = Path.base other ↔
      Path.segments path = Path.segments other := by
  constructor
  · rintro ⟨hparent, hbase⟩
    have hdirectory := congrArg Path.segments hparent
    rw [Path.segments_parent, Path.segments_parent] at hdirectory
    rw [← Path.dropLast_append_base hpath, hdirectory, hbase, Path.dropLast_append_base hother]
  · intro heq
    simp only [Path.parent, Path.base, heq, and_self]

/-- The second half of a move, which cannot fail: the directory of the target still stands once the
source is gone. -/
theorem transfer_apply {source target : String} {node : Node} {entries : Entries Node} {volume : Volume}
    (hsource : Path.segments source ≠ [])
    (hnode : volume.root.lookup (Path.segments source) = some node)
    (htarget : Path.segments target ≠ [])
    (hinside : ¬ Path.segments source <+: (Path.segments target).dropLast)
    (hgoal : volume.root.lookup (Path.segments target).dropLast = some (.directory entries)) :
    (do
      let siblings ← ask (·.entriesAt (Path.parent source))
      match siblings.get? (Path.base source) with
      | none => throw (.noSuchEntry (Path.canonical source))
      | some node =>
        setEntries (Path.parent source) (siblings.erase (Path.base source))
        let entries ← ask (·.entriesAt (Path.parent target))
        setEntries (Path.parent target) (entries.put (Path.base target) node)
        save : Edit Unit) volume =
      .ok () (volume.saved
        ((volume.root.removeAt (Path.segments source)).insertAt (Path.segments target) node)) := by
  obtain ⟨siblings, hsiblings, hget⟩ := (Node.lookup_segments_eq_some_iff hsource).mp hnode
  have hremoved := Node.removeAt_segments hsource hsiblings
  obtain ⟨left, hleft⟩ := (Node.directory_removeAt_iff hinside).mpr ⟨entries, hgoal⟩
  have hasked := hleft
  rw [← Path.segments_parent, ← Node.entriesAt_eq_ok_iff] at hsiblings hasked
  simp only [ask_bind, hsiblings, hget, setEntries_bind, Path.segments_parent]
  rw [← hremoved]
  simp only [hasked]
  rw [Node.insertAt_segments htarget hleft]
  rfl

theorem move_apply (current source destination : String) (volume : Volume) :
    move current source destination volume =
      let start := Path.segments (Path.resolve current source)
      let goal := Path.segments (Path.resolve current destination)
      let target := volume.root.landing start goal
      if start = [] then .error (.permissionDenied "/") volume
      else match volume.root.lookup start with
        | none => .error (.noSuchEntry (Path.ofSegments start)) volume
        | some node =>
          if start <+: target.dropLast then
            .error (.invalidMove (Path.ofSegments start) (Path.ofSegments goal)) volume
          else if target = start then .ok () volume
          else match volume.root.entriesAt (Path.ofSegments target.dropLast) with
            | .error e => .error e volume
            | .ok _ => .ok () (volume.saved ((volume.root.removeAt start).insertAt target node)) := by
  unfold move
  generalize Path.resolve current source = source
  generalize Path.resolve current destination = destination
  have hsource := Path.segments_canonical source
  have hroot : Path.canonical source = "/" ↔ Path.segments source = [] :=
    Path.ofSegments_eq_slash_iff fun _ => Path.isName_of_mem_segments
  dsimp only
  by_cases hne : Path.segments source = []
  · rw [if_pos (hroot.mpr hne), if_pos hne, throw_bind, hroot.mpr hne]
  · rw [if_neg (mt hroot.mp hne), if_neg hne, ask_bind, Node.at?, hsource]
    cases hnode : volume.root.lookup (Path.segments source) with
    | none => rfl
    | some node =>
        have hbase : Path.base (Path.canonical source) = Path.base source := by
          rw [Path.base, hsource, Path.base]
        have hparent : Path.parent (Path.canonical source) = Path.parent source := by
          rw [Path.parent, hsource, Path.parent]
        rw [hbase, hparent]
        simp only [ask_bind, moveTarget_eq hne]
        -- from here on the target is known by its names alone
        have htarget := landing_ne_nil hne hnode (Path.segments destination)
        have hsegments := segments_landingPath volume.root source (Path.canonical destination)
        rw [Path.segments_canonical] at hsegments
        rw [← hsegments] at htarget ⊢
        generalize landingPath volume.root source (Path.canonical destination) = target at *
        have hbelow : isAtOrBelow (Path.parent target) (Path.canonical source) = true ↔
            Path.segments source <+: (Path.segments target).dropLast :=
          isAtOrBelow_ofSegments_iff hne
            (fun _ hname => Path.isName_of_mem_segments (List.dropLast_subset _ hname))
            (fun _ => Path.isName_of_mem_segments)
        simp only [hbelow, parent_base_eq_iff htarget hne]
        by_cases hinside : Path.segments source <+: (Path.segments target).dropLast
        · rw [if_pos hinside, if_pos hinside]
          rfl
        rw [if_neg hinside, if_neg hinside]
        by_cases hstay : Path.segments target = Path.segments source
        · rw [if_pos hstay, if_pos hstay]
          rfl
        rw [if_neg hstay, if_neg hstay, ask_bind, ← Path.parent]
        cases hgoal : volume.root.entriesAt (Path.parent target) with
        | error e => rfl
        | ok entries =>
            rw [Node.entriesAt_eq_ok_iff, Path.segments_parent] at hgoal
            dsimp only
            exact transfer_apply hne hnode htarget hinside hgoal

theorem of_move_eq_ok {current source destination : String} {volume after : Volume} {u : Unit}
    (h : move current source destination volume = .ok u after) :
    ∃ start target node, start = Path.segments (Path.resolve current source) ∧
      target = volume.root.landing start (Path.segments (Path.resolve current destination)) ∧
      volume.root.lookup start = some node ∧ target ≠ [] ∧ ¬ start <+: target.dropLast ∧
      (target = start ∧ after = volume ∨
        target ≠ start ∧
          (∃ entries, volume.root.lookup target.dropLast = some (.directory entries)) ∧
          after = volume.saved ((volume.root.removeAt start).insertAt target node)) := by
  rw [move_apply] at h
  dsimp only at h
  have hnames : ∀ name ∈ volume.root.landing (Path.segments (Path.resolve current source))
      (Path.segments (Path.resolve current destination)), Path.IsName name := fun _ =>
    Node.isName_of_mem_landing
  generalize Path.segments (Path.resolve current source) = start at h hnames ⊢
  generalize Path.segments (Path.resolve current destination) = goal at h hnames ⊢
  split at h
  · cases h
  rename_i hne
  split at h
  · cases h
  rename_i node hnode
  split at h
  · cases h
  rename_i hinside
  refine ⟨start, _, node, rfl, rfl, hnode, landing_ne_nil hne hnode goal, hinside, ?_⟩
  split at h
  · rename_i hstay
    cases h
    exact .inl ⟨hstay, rfl⟩
  rename_i hstay
  split at h
  · cases h
  · rename_i entries hentries
    cases h
    rw [Node.entriesAt_eq_ok_iff, Path.segments_ofSegments
      fun name hname => hnames name (List.dropLast_subset _ hname)] at hentries
    exact .inr ⟨hstay, ⟨entries, hentries⟩, rfl⟩

end Edit

end VirtualShell
