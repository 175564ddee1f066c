import VirtualShell.Proofs.Files.Edits
import VirtualShell.Proofs.Tree.Shape

/-! # What a move keeps

A moved node is found at its new place with everything below it, and every file elsewhere stays as it
was.  The files that go are those at the new place and below it: a directory there gives way unasked.
-/

namespace VirtualShell.Edit

/-- A file survives a move, along with the moved node or at its own path, exactly if it is in the moved
node, or neither at nor below the new place, or the moved node has the same file under the same names. -/
theorem move_keeps_file_iff {current source destination : String} {volume after : Volume} {u : Unit}
    (h : move current source destination volume = .ok u after) {path content : String}
    (hfile : volume.root.at? path = .ok (.file content)) :
    let start := Path.segments (Path.resolve current source)
    let target := volume.root.landing start (Path.segments (Path.resolve current destination))
    ((∀ rest, Path.segments path = start ++ rest →
        after.root.at? (Path.ofSegments (target ++ rest)) = .ok (.file content)) ∧
      (¬ start <+: Path.segments path → after.root.at? path = .ok (.file content))) ↔
    (∀ rest, Path.segments path = target ++ rest → ¬ start <+: Path.segments path →
      volume.root.at? (Path.ofSegments (start ++ rest)) = .ok (.file content)) := by
  obtain ⟨start, target, node, rfl, htarget, hnode, hbelow, houtside, hafter⟩ := of_move_eq_ok h
  dsimp only
  rw [← htarget]
  rw [Node.at?_eq_ok_iff] at hfile
  have htargetNames : ∀ name ∈ target, Path.IsName name := fun name hname =>
    (Node.mem_landing (htarget ▸ hname)).elim Path.isName_of_mem_segments Path.isName_of_mem_segments
  have hstartNames : ∀ name ∈ Path.segments (Path.resolve current source), Path.IsName name := fun _ =>
    Path.isName_of_mem_segments
  have hnames : ∀ name ∈ Path.segments path, Path.IsName name := fun _ => Path.isName_of_mem_segments
  rw [Node.at?_eq_ok_iff]
  generalize Path.segments path = names at *
  generalize Path.segments (Path.resolve current source) = start at *
  have hrest : ∀ {front rest}, names = front ++ rest → ∀ name ∈ rest, Path.IsName name :=
    fun heq name hname => hnames name (heq ▸ List.mem_append_right _ hname)
  have hcarried : (∀ rest, names = start ++ rest →
        after.root.at? (Path.ofSegments (target ++ rest)) = .ok (.file content)) ↔
      ∀ rest, names = start ++ rest → after.root.lookup (target ++ rest) = some (.file content) :=
    forall_congr' fun rest => imp_congr_right fun heq =>
      Node.at?_ofSegments_eq_ok_iff (List.forall_mem_append.mpr ⟨htargetNames, hrest heq⟩)
  have hsame : (∀ rest, names = target ++ rest → ¬ start <+: names →
        volume.root.at? (Path.ofSegments (start ++ rest)) = .ok (.file content)) ↔
      ∀ rest, names = target ++ rest → ¬ start <+: names →
        volume.root.lookup (start ++ rest) = some (.file content) :=
    forall_congr' fun rest => imp_congr_right fun heq => imp_congr_right fun _ =>
      Node.at?_ofSegments_eq_ok_iff (List.forall_mem_append.mpr ⟨hstartNames, hrest heq⟩)
  rw [hcarried, hsame]
  rcases hafter with ⟨rfl, rfl⟩ | ⟨_, hdirectory, rfl⟩
  · -- nothing happened: what is at or below the new place is at or below the old one
    constructor
    · rintro _ rest rfl hstart
      exact absurd (List.prefix_append _ _) hstart
    · intro _
      constructor
      · rintro rest rfl
        exact hfile
      · intro _
        exact hfile
  · exact Node.file_moved_iff hnode hbelow houtside hdirectory hfile

def crowded : Volume :=
  ⟨Node.directory [("a", .directory [("x", .file "1")]),
    ("b", .directory [("a", .directory [("y", .file "2")])])], []⟩

theorem move_drops_directory :
    ∃ after, move "/" "/a" "/b" crowded = .ok () after ∧
      crowded.root.at? "/b/a/y" = .ok (.file "2") ∧
      ¬ ((∀ rest, Path.segments "/b/a/y" = Path.segments "/a" ++ rest →
            after.root.at? (Path.ofSegments (["b", "a"] ++ rest)) = .ok (.file "2")) ∧
          (¬ Path.segments "/a" <+: Path.segments "/b/a/y" →
            after.root.at? "/b/a/y" = .ok (.file "2"))) := by
  have hrun : move "/" "/a" "/b" crowded =
      .ok () (crowded.saved (.directory [("b", .directory [("a", .directory [("x", .file "1")])])])) :=
    rfl
  have hfile : crowded.root.at? "/b/a/y" = .ok (.file "2") := by decide
  refine ⟨_, hrun, hfile, fun hkept => ?_⟩
  have hsame := (move_keeps_file_iff hrun hfile).mp hkept ["y"] (by decide) (by decide)
  revert hsame
  decide

/-! ## One subtree goes to another place -/

/-- A move that changes the tree takes the node away from its place and puts it, with everything below
it, at a place that is not inside it.  Every other place leads where it led before. -/
theorem move_reparents {current source destination : String} {volume after : Volume} {u : Unit}
    (hroot : volume.root.Unique) (h : move current source destination volume = .ok u after)
    (hchanged : after.root ≠ volume.root) :
    let start := Path.segments (Path.resolve current source)
    let target := volume.root.landing start (Path.segments (Path.resolve current destination))
    ¬ start <+: target ∧ (volume.root.lookup start).isSome ∧
      (∀ rest, after.root.lookup (target ++ rest) = volume.root.lookup (start ++ rest)) ∧
      (¬ target <+: start → after.root.lookup start = none) ∧
      ∀ names, ¬ start <+: names → ¬ target <+: names →
        after.root.labelAt names = volume.root.labelAt names := by
  obtain ⟨start, target, node, rfl, htarget, hnode, hne, houtside, hafter⟩ := of_move_eq_ok h
  dsimp only
  rw [← htarget]
  generalize Path.segments (Path.resolve current source) = start at *
  rcases hafter with ⟨_, rfl⟩ | ⟨hmoved, hdirectory, rfl⟩
  · exact absurd rfl hchanged
  rw [Volume.root_saved]
  have hstart : start ≠ [] := by
    rintro rfl
    exact houtside List.nil_prefix
  refine ⟨fun hinside => ?_, by simp [hnode], fun rest => ?_, fun habove => ?_, fun names hold hnew => ?_⟩
  · -- the move is refused when the new directory is inside the node, so only the old place is left
    obtain ⟨place, name, rfl⟩ := List.eq_nil_or_concat' target |>.resolve_left hne
    rw [List.dropLast_concat] at houtside
    exact (List.prefix_concat_iff.mp hinside).elim (fun heq => hmoved heq.symm) houtside
  · rw [Node.lookup_moved_below hne houtside hdirectory, Node.lookup_append_of_some hnode]
  · -- what is put at a place that is not above the old one cannot fill the gap again
    have hgone := Node.labelAt_eq_none_iff.mpr (hroot.lookup_removeAt_self hstart)
    rw [← Node.labelAt_insertAt habove _ node] at hgone
    exact Node.labelAt_eq_none_iff.mp hgone
  · exact Node.labelAt_moved hold hnew _ _

/-- A directory that takes the place of a file beside it. -/
theorem move_reparents_over_file :
    ∃ volume after : Volume, volume.root.Unique ∧ move "/" "/a" "/b" volume = .ok () after ∧
      after.root ≠ volume.root ∧ volume.root.lookup ["b"] = some (.file "2") ∧
      (∀ rest, after.root.lookup (["b"] ++ rest) = volume.root.lookup (["a"] ++ rest)) ∧
      after.root.lookup ["a"] = none ∧
      ∀ names, ¬ ["a"] <+: names → ¬ ["b"] <+: names →
        after.root.labelAt names = volume.root.labelAt names := by
  let volume : Volume :=
    ⟨Node.directory [("a", .directory [("x", .file "1")]), ("b", .file "2"), ("c", .file "3")], []⟩
  let moved : Node := .directory [("b", .directory [("x", .file "1")]), ("c", .file "3")]
  have hstart : Path.segments (Path.resolve "/" "/a") = ["a"] := by decide
  have hgoal : Path.segments (Path.resolve "/" "/b") = ["b"] := by decide
  have htarget : volume.root.landing ["a"] ["b"] = ["b"] := by decide
  have hrun : move "/" "/a" "/b" volume = .ok () (volume.saved moved) := by
    rw [move_apply]
    simp only [hstart, hgoal, htarget]
    rfl
  have hunique : volume.root.Unique := by
    simp [volume, Node.Named.directory_iff, Node.Named.file]
  have hchanged : (volume.saved moved).root ≠ volume.root := by decide
  have hreparents := move_reparents hunique hrun hchanged
  dsimp only at hreparents
  rw [hstart, hgoal, htarget] at hreparents
  obtain ⟨_, _, hcarried, hgone, helsewhere⟩ := hreparents
  exact ⟨volume, _, hunique, hrun, hchanged, rfl, hcarried, hgone (by decide), helsewhere⟩

end VirtualShell.Edit
