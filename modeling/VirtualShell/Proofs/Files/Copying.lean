import VirtualShell.Proofs.Files.Changes

/-! # What a copy adds

A copy stands at its new place as the source stood before, even inside the source itself.  It replaces
nothing but a file, and every place that is not below it leads where it led before.
-/

namespace VirtualShell.Change

def Copies (current source destination : String) (change : Change) : Prop :=
  change = copyFile current source destination ∨ change = copyDirectory current source destination

/-- A copy puts the node that is found under the source at a place in an existing directory.  The
place is free, or holds a file if a file is copied. -/
theorem of_copy_eq_ok {change : Change} {current source destination : String} {volume after : Volume}
    {u : Unit} (hcopy : change.Copies current source destination)
    (h : change.edit volume = .ok u after) :
    ∃ start target node, start = Path.segments (Path.resolve current source) ∧
      target = volume.root.landing start (Path.segments (Path.resolve current destination)) ∧
      volume.root.lookup start = some node ∧ target ≠ [] ∧
      (∃ entries, volume.root.lookup target.dropLast = some (.directory entries)) ∧
      (volume.root.lookup target = none ∨ change = copyFile current source destination ∧
        ∃ content, volume.root.lookup target = some (.file content)) ∧
      after = volume.saved (volume.root.insertAt target node) := by
  rcases hcopy with rfl | rfl
  · dsimp only [edit] at h
    obtain ⟨content, target, htarget, hfound, hne, hdirectory, hfree, hafter⟩ :=
      Edit.copyFile_eq_ok_iff.mp h
    refine ⟨_, target, _, rfl, htarget, hfound, hne, hdirectory, ?_, hafter⟩
    cases hthere : volume.root.lookup target with
    | none => exact .inl rfl
    | some node =>
        cases node with
        | file old => exact .inr ⟨rfl, old, rfl⟩
        | directory inner => exact absurd hthere (hfree inner)
  · dsimp only [edit] at h
    obtain ⟨copied, target, htarget, hfound, hne, hdirectory, hfree, hafter⟩ :=
      Edit.copyDirectory_eq_ok_iff.mp h
    exact ⟨_, target, _, rfl, htarget, hfound, hne, hdirectory, .inl hfree, hafter⟩

/-- After a copy the place of the copy holds what the source held before.  Nothing stood there, or a
file that a file gives way to, and whatever is not at or below that place is as it was. -/
theorem copy_snapshot {change : Change} {current source destination : String} {volume after : Volume}
    {u : Unit} (hcopy : change.Copies current source destination)
    (h : change.edit volume = .ok u after) :
    let start := Path.segments (Path.resolve current source)
    let target := volume.root.landing start (Path.segments (Path.resolve current destination))
    (∃ node, volume.root.lookup start = some node ∧ after.root.lookup target = some node) ∧
      (volume.root.lookup target = none ∨ change = copyFile current source destination ∧
        ∃ content, volume.root.lookup target = some (.file content)) ∧
      ∀ names, ¬ target <+: names → after.root.labelAt names = volume.root.labelAt names := by
  obtain ⟨start, target, node, rfl, rfl, hnode, hne, ⟨entries, hentries⟩, hfree, rfl⟩ :=
    of_copy_eq_ok hcopy h
  dsimp only
  rw [Volume.root_saved]
  have hplace := Node.lookup_insertAt_below hne hentries node []
  rw [List.append_nil, Node.lookup_nil] at hplace
  exact ⟨⟨node, hnode, hplace⟩, hfree, fun names hnames => Node.labelAt_insertAt hnames _ node⟩

/-- A directory that is copied into itself. -/
theorem copy_snapshot_inside :
    ∃ volume after : Volume, (copyDirectory "/" "/d" "/d").edit volume = .ok () after ∧
      after.root.lookup ["d", "d"] = volume.root.lookup ["d"] ∧
      volume.root.lookup ["d", "d"] = none ∧
      ∀ names, ¬ ["d", "d"] <+: names → after.root.labelAt names = volume.root.labelAt names := by
  let entries : Entries Node := [("x", .file "1")]
  let volume : Volume := ⟨Node.directory [("d", .directory entries)], []⟩
  have hstart : Path.segments (Path.resolve "/" "/d") = ["d"] := by decide
  have htarget : volume.root.landing ["d"] ["d"] = ["d", "d"] := by decide
  have hrun : (copyDirectory "/" "/d" "/d").edit volume = .ok ()
      (volume.saved (volume.root.insertAt ["d", "d"] (.directory entries))) := by
    refine Edit.copyDirectory_eq_ok_iff.mpr ⟨_, ["d", "d"], ?_, ?_, by decide, ⟨_, rfl⟩, rfl, rfl⟩
    · rw [hstart, htarget]
    · rw [hstart]
      rfl
  have hsnapshot := copy_snapshot (.inr rfl) hrun
  dsimp only at hsnapshot
  rw [hstart, htarget] at hsnapshot
  obtain ⟨⟨node, hnode, hcopy⟩, hfree | ⟨hfile, _⟩, helsewhere⟩ := hsnapshot
  · exact ⟨volume, _, hrun, hcopy.trans hnode.symm, hfree, helsewhere⟩
  · cases hfile

end VirtualShell.Change
