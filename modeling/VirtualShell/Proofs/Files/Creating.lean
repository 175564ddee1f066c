import VirtualShell.Proofs.Files.Edits
import VirtualShell.Proofs.Tree.Outlines
import VirtualShell.Proofs.Tree.Shape

/-! # Creating and deleting

A new entry goes to the end of its directory, and a deletion takes one entry out from between the others.
Either way two trees are left that differ in this one entry alone, so a deletion undoes the creation of
the same name.
-/

namespace VirtualShell

namespace Node

variable {root other : Node} {path : String}

/-! ## Looking at paths -/

theorem map_label_at? (h : root.labelAt (Path.segments path) = other.labelAt (Path.segments path)) :
    (root.at? path).map label = (other.at? path).map label := by
  unfold labelAt at h
  unfold at?
  cases hroot : root.lookup (Path.segments path) with
  | none =>
      rw [hroot, Option.map_none, eq_comm, Option.map_eq_none_iff] at h
      rw [h]
  | some node =>
      rw [hroot, Option.map_some, eq_comm, Option.map_eq_some_iff] at h
      obtain ⟨found, hfound, hlabel⟩ := h
      simp [hfound, hlabel, Except.map]

theorem list_eq (root : Node) (path : String) :
    root.list path =
      match root.labelAt (Path.segments path), root.outlineAt (Path.segments path) with
      | some none, some shown => .ok shown
      | some (some _), _ => .error (.notADirectory path)
      | _, _ => .error (.noSuchEntry path) := by
  unfold list entriesAt at? labelAt outlineAt
  cases root.lookup (Path.segments path) with
  | none => rfl
  | some node => cases node <;> rfl

theorem list_congr (hlabel : root.labelAt (Path.segments path) = other.labelAt (Path.segments path))
    (houtline : root.outlineAt (Path.segments path) = other.outlineAt (Path.segments path)) :
    root.list path = other.list path := by
  rw [list_eq, list_eq, hlabel, houtline]

/-! ## One entry more -/

/-- The first tree has one entry more than the second, between the entries `front` and `back` of the same
directory.  Every other path leads to the same kind of node with the same content or to none, and
every other directory lists the same. -/
structure DiffersAt (path : String) (node : Node) (front back : Entries Node) (more less : Node) : Prop where
  found : more.at? path = .ok node
  missing : less.exists? path = false
  listed : more.entriesAt (Path.parent path) = .ok (front ++ (Path.base path, node) :: back)
  unlisted : less.entriesAt (Path.parent path) = .ok (front ++ back)
  elsewhere : ∀ other, Path.segments other ≠ Path.segments path →
    (more.at? other).map label = (less.at? other).map label
  shown : ∀ other, Path.segments other ≠ Path.segments path →
    Path.segments other ≠ Path.segments (Path.parent path) → more.list other = less.list other

/-- The entry may be given to the directory or be taken from it, as long as nothing is below it. -/
theorem differsAt_of_withEntries {node more less : Node} {front back : Entries Node}
    (hne : Path.segments path ≠ []) (hbare : node.outline = [])
    (hless : less.lookup (Path.segments path).dropLast = some (directory (front ++ back)))
    (hmore : more = less.withEntries (front ++ (Path.base path, node) :: back) (Path.segments path).dropLast)
    (hfree : Entries.get? (Path.base path) (front ++ back) = none) :
    DiffersAt path node front back more less := by
  have hget := Entries.get?_between hfree node
  have hparent := lookup_withEntries_below hless (front ++ (Path.base path, node) :: back) []
  rw [List.append_nil, ← hmore, lookup_nil] at hparent
  have hname : (Path.segments path).dropLast ++ [Path.base path] = Path.segments path :=
    Path.dropLast_append_base hne
  have hframe : ∀ names, names ≠ Path.segments path → more.labelAt names = less.labelAt names ∧
      (names ≠ (Path.segments path).dropLast → more.outlineAt names = less.outlineAt names) := by
    intro names hnames
    rw [hmore]
    refine unchanged_withEntries hless (fun key hkey => ?_) ?_ ?_ (hname.symm ▸ hnames)
    · rw [hget, if_neg hkey]
    · simp [hfree]
    · simp [hget, hbare]
  exact
    { found := by rw [at?_eq_ok_iff, lookup_segments hne hparent, hget, if_pos rfl]
      missing := by rw [exists?_eq_false_iff, lookup_segments hne hless, hfree]
      listed := by rw [entriesAt_eq_ok_iff, Path.segments_parent, hparent]
      unlisted := by rw [entriesAt_eq_ok_iff, Path.segments_parent, hless]
      elsewhere := fun other hother => map_label_at? (hframe _ hother).1
      shown := fun other hother hplace => by
        rw [Path.segments_parent] at hplace
        exact list_congr (hframe _ hother).1 ((hframe _ hother).2 hplace) }

theorem differsAt_insertAt {node : Node} (hne : Path.segments path ≠ []) (hbare : node.outline = [])
    {entries : Entries Node}
    (hparent : root.lookup (Path.segments path).dropLast = some (directory entries))
    (hmissing : root.lookup (Path.segments path) = none) :
    DiffersAt path node entries [] (root.insertAt (Path.segments path) node) root := by
  have hfree : entries.get? (Path.base path) = none := by rw [← lookup_segments hne hparent, hmissing]
  refine differsAt_of_withEntries hne hbare ?_ ?_ ?_
  · rw [List.append_nil, hparent]
  · rw [insertAt_segments hne hparent, Entries.put_of_get?_none node hfree]
  · rw [List.append_nil, hfree]

theorem differsAt_removeAt {node : Node} (hroot : root.Unique) (hne : Path.segments path ≠ [])
    (hbare : node.outline = []) (hnode : root.lookup (Path.segments path) = some node) :
    ∃ front back, DiffersAt path node front back root (root.removeAt (Path.segments path)) := by
  obtain ⟨entries, hparent, hget⟩ := (lookup_segments_eq_some_iff hne).mp hnode
  obtain ⟨front, back, hsplit, herased, _⟩ := Entries.exists_append_of_get? hget
  obtain ⟨once, _, _⟩ := Named.directory_iff.mp (hroot.lookup hparent)
  have hplace := lookup_withEntries_below hparent (front ++ back) []
  rw [List.append_nil, lookup_nil] at hplace
  have hremoved := removeAt_segments hne hparent
  rw [herased] at hremoved
  refine ⟨front, back, differsAt_of_withEntries hne hbare ?_ ?_ ?_⟩
  · rw [hremoved, hplace]
  · rw [hremoved, withEntries_withEntries, ← hsplit, withEntries_of_lookup hparent]
  · rw [← herased, Entries.get?_erase_self once]

end Node

namespace Edit

variable {current name : String} {node : Node} {volume after : Volume} {u : Unit}

/-! ## Undoing a creation -/

theorem removeAt_of_create_eq_ok (h : create current name node volume = .ok u after) :
    after.root.removeAt (Path.segments (Path.resolve current name)) = volume.root := by
  obtain ⟨hne, ⟨entries, hparent⟩, hmissing, rfl⟩ := create_eq_ok_iff.mp h
  rw [Node.lookup_segments hne hparent] at hmissing
  rw [Volume.root_saved, ← Path.dropLast_append_base hne]
  exact Node.removeAt_insertAt hparent hmissing node

theorem differsAt_of_create_eq_ok (hbare : node.outline = [])
    (h : create current name node volume = .ok u after) :
    ∃ front, Node.DiffersAt (Path.resolve current name) node front [] after.root volume.root := by
  obtain ⟨hne, ⟨entries, hparent⟩, hmissing, rfl⟩ := create_eq_ok_iff.mp h
  rw [Volume.root_saved]
  exact ⟨entries, Node.differsAt_insertAt hne hbare hparent hmissing⟩

theorem exists_create_iff :
    (∃ after, create current name node volume = .ok () after) ↔
      Path.segments (Path.resolve current name) ≠ [] ∧
        volume.root.HasDirectory (Path.parent (Path.resolve current name)) ∧
        volume.root.exists? (Path.resolve current name) = false := by
  unfold Node.HasDirectory
  simp only [create_eq_ok_iff, Node.entriesAt_eq_ok_iff, Path.segments_parent, Node.exists?_eq_false_iff,
    exists_and_left, exists_eq, and_true]

theorem exists_deleteFile_iff :
    (∃ after, deleteFile current name volume = .ok () after) ↔
      Path.segments (Path.resolve current name) ≠ [] ∧
        ∃ content, volume.root.at? (Path.resolve current name) = .ok (.file content) := by
  simp only [deleteFile_eq_ok_iff, Node.at?_eq_ok_iff, exists_and_left, exists_eq, and_true]

theorem exists_deleteDirectory_iff :
    (∃ after, deleteDirectory current name volume = .ok () after) ↔
      Path.segments (Path.resolve current name) ≠ [] ∧
        volume.root.at? (Path.resolve current name) = .ok .empty := by
  simp only [deleteDirectory_eq_ok_iff, Node.at?_eq_ok_iff, exists_and_left, exists_eq, and_true]

/-- What is deleted shows nothing, so its entry is all that is missing afterwards. -/
theorem differsAt_of_delete_eq_ok (hroot : volume.root.Unique)
    (h : deleteFile current name volume = .ok u after ∨ deleteDirectory current name volume = .ok u after) :
    ∃ node front back,
      Node.DiffersAt (Path.resolve current name) node front back volume.root after.root := by
  rcases h with h | h
  · obtain ⟨hne, ⟨content, hfile⟩, rfl⟩ := deleteFile_eq_ok_iff.mp h
    rw [Volume.root_saved]
    exact ⟨_, Node.differsAt_removeAt hroot hne rfl hfile⟩
  · obtain ⟨hne, hempty, rfl⟩ := deleteDirectory_eq_ok_iff.mp h
    rw [Volume.root_saved]
    exact ⟨_, Node.differsAt_removeAt hroot hne rfl hempty⟩

/-- In a tree that lists no name twice, a file or a directory can be created at a path exactly if the path
is not the root, its parent is a directory and nothing is there yet.  Then the new entry is the last one of
its directory and the only change, and deleting it under the same name restores the tree.  A file can be
deleted exactly if it is there and not the root, a directory if moreover it is empty; the entry between
its siblings is all that goes. -/
theorem delete_undoes_create (volume : Volume) (hroot : volume.root.Unique) (current name : String) :
    let root := volume.root
    let path := Path.resolve current name
    let free := Path.segments path ≠ [] ∧ root.HasDirectory (Path.parent path) ∧ root.exists? path = false
    (∀ content, (∃ after, createFile current name content volume = .ok () after) ↔ free) ∧
    ((∃ after, createDirectory current name volume = .ok () after) ↔ free) ∧
    (∀ content after, createFile current name content volume = .ok () after →
      (∃ siblings, Node.DiffersAt path (.file content) siblings [] after.root root) ∧
      after.root.contentOf current name = .ok content ∧
      ∃ last, deleteFile current name after = .ok () last ∧ last.root = root) ∧
    (∀ after, createDirectory current name volume = .ok () after →
      (∃ siblings, Node.DiffersAt path .empty siblings [] after.root root) ∧
      ∃ last, deleteDirectory current name after = .ok () last ∧ last.root = root) ∧
    ((∃ after, deleteFile current name volume = .ok () after) ↔
      Path.segments path ≠ [] ∧ ∃ content, root.at? path = .ok (.file content)) ∧
    ((∃ after, deleteDirectory current name volume = .ok () after) ↔
      Path.segments path ≠ [] ∧ root.at? path = .ok .empty) ∧
    ∀ after, deleteFile current name volume = .ok () after ∨
        deleteDirectory current name volume = .ok () after →
      ∃ node front back, Node.DiffersAt path node front back root after.root := by
  intro root path free
  refine ⟨fun content => exists_create_iff, exists_create_iff, fun content after hcreated => ?_,
    fun after hcreated => ?_, exists_deleteFile_iff, exists_deleteDirectory_iff,
    fun after hdeleted => differsAt_of_delete_eq_ok hroot hdeleted⟩
  · obtain ⟨siblings, hdiffers⟩ := differsAt_of_create_eq_ok rfl hcreated
    have hne := (create_eq_ok_iff.mp hcreated).1
    have hread := Node.contentOf_eq_ok_iff.mpr (Node.at?_eq_ok_iff.mp hdiffers.found)
    obtain ⟨last, hdeleted⟩ := exists_deleteFile_iff.mpr ⟨hne, content, hdiffers.found⟩
    obtain ⟨_, _, hlast⟩ := deleteFile_eq_ok_iff.mp hdeleted
    refine ⟨⟨siblings, hdiffers⟩, hread, last, hdeleted, ?_⟩
    rw [hlast, Volume.root_saved, removeAt_of_create_eq_ok hcreated]
  · obtain ⟨siblings, hdiffers⟩ := differsAt_of_create_eq_ok rfl hcreated
    have hne := (create_eq_ok_iff.mp hcreated).1
    obtain ⟨last, hdeleted⟩ := exists_deleteDirectory_iff.mpr ⟨hne, hdiffers.found⟩
    obtain ⟨_, _, hlast⟩ := deleteDirectory_eq_ok_iff.mp hdeleted
    refine ⟨⟨siblings, hdiffers⟩, last, hdeleted, ?_⟩
    rw [hlast, Volume.root_saved, removeAt_of_create_eq_ok hcreated]

/-- A directory with two entries, spelled with slashes to spare. -/
theorem delete_undoes_create_spelled :
    let root : Node := .directory [("a", .directory [("b", .file "1"), ("c", .empty)]), ("d", .file "2")]
    root.Unique ∧
    (∃ after, createFile "/a//" "n/" "new" ⟨root, []⟩ = .ok () after ∧
      after.root.list "/a" = .ok [("b", .file), ("c", .directory), ("n", .file)] ∧
      after.root.list "/" = root.list "/" ∧
      after.root.contentOf "/a//" "n/" = .ok "new" ∧
      ∃ last, deleteFile "/a//" "n/" after = .ok () last ∧ last.root = root) ∧
    ∃ after, deleteDirectory "//a" "c//" ⟨root, []⟩ = .ok () after ∧
      after.root.list "/a" = .ok [("b", .file)] ∧ after.root.exists? "/a/c" = false := by
  intro root
  have hroot : root.Unique := by simp [root, Node.empty, Node.Named.directory_iff, Node.Named.file]
  obtain ⟨hfree, _, hcreate, _⟩ := delete_undoes_create ⟨root, []⟩ hroot "/a//" "n/"
  obtain ⟨_, _, _, _, _, _, hdelete⟩ := delete_undoes_create ⟨root, []⟩ hroot "//a" "c//"
  obtain ⟨after, hcreated⟩ : ∃ after, createFile "/a//" "n/" "new" ⟨root, []⟩ = .ok () after := ⟨_, rfl⟩
  obtain ⟨less, hdeleted⟩ : ∃ less, deleteDirectory "//a" "c//" ⟨root, []⟩ = .ok () less := ⟨_, rfl⟩
  obtain ⟨⟨siblings, hdiffers⟩, hcontent, hundone⟩ := hcreate "new" after hcreated
  obtain ⟨node, front, back, hless⟩ := hdelete less (.inr hdeleted)
  refine ⟨hroot, ⟨after, hcreated, ?_, ?_, hcontent, hundone⟩, less, hdeleted, ?_, hless.missing⟩
  · cases hcreated
    decide
  · exact hdiffers.shown "/" (by decide) (by decide)
  · cases hdeleted
    decide

end Edit

end VirtualShell
