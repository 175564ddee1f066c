import VirtualShell.Proofs.Files.Creating
import VirtualShell.Proofs.Files.Naming

/-! # Renaming and moving

An entry gets another name by a rename in its directory, or by a move from one path to the other.  Where
the new name is free the two agree on whether they succeed and on what every path leads to afterwards.
The order of the entries in that one directory tells them apart.
-/

namespace VirtualShell

namespace Node

variable {root : Node} {path : String} {entries : Entries Node}

theorem lookup_entry (h : root.lookup (Path.segments path) = some (directory entries)) (name : String) :
    root.lookup (Path.segments path ++ [name]) = entries.get? name := by
  rw [lookup_append_of_some h, lookup_cons_directory]
  cases entries.get? name <;> rfl

theorem entriesAt_withEntries (h : root.lookup (Path.segments path) = some (directory entries))
    (new : Entries Node) : (root.withEntries new (Path.segments path)).entriesAt path = .ok new := by
  have hplace := lookup_withEntries_below h new []
  rw [List.append_nil, lookup_nil] at hplace
  exact entriesAt_eq_ok_iff.mpr hplace

end Node

namespace Edit

variable {current old new : String} {volume after : Volume} {entries : Entries Node} {u : Unit}

theorem isName_of_free (hcurrent : volume.root.lookup (Path.segments current) = some (.directory entries))
    (hplain : '/' ∉ new.toList) (hfree : volume.root.exists? (Path.resolve current new) = false) :
    Path.IsName new ∧ new ≠ "." := by
  rw [Node.exists?_eq_false_iff] at hfree
  have hempty : new ≠ "" := by
    rintro rfl
    rw [Path.segments_resolve_empty, hcurrent] at hfree
    cases hfree
  have hdot : new ≠ "." := by
    rintro rfl
    rw [Path.resolve_dot, hcurrent] at hfree
    cases hfree
  exact ⟨⟨hempty, hplain⟩, hdot⟩

/-- A move to a free name in the same directory takes the entry to the end of the directory. -/
theorem move_beside_eq_ok_iff
    (hcurrent : volume.root.lookup (Path.segments current) = some (.directory entries))
    (hold : Path.segments (Path.resolve current old) = Path.segments current ++ [old])
    (hnew : Path.segments (Path.resolve current new) = Path.segments current ++ [new])
    (hfree : entries.get? new = none) :
    move current old new volume = .ok u after ↔
      ∃ node, entries.get? old = some node ∧ after = volume.saved
        (volume.root.withEntries (entries.erase old ++ [(new, node)]) (Path.segments current)) := by
  have hgoal := (Node.lookup_entry hcurrent new).trans hfree
  have hlanding : volume.root.landing (Path.segments current ++ [old]) (Path.segments current ++ [new]) =
      Path.segments current ++ [new] := by
    simp [Node.landing, hgoal]
  have hopen : volume.root.entriesAt (Path.ofSegments (Path.segments current)) = .ok entries := by
    rw [Node.entriesAt_eq_ok_iff, Path.segments_ofSegments fun _ => Path.isName_of_mem_segments]
    exact hcurrent
  have hbelow : Path.segments current ++ [old] ≠ [] := by simp
  have houtside : ¬ Path.segments current ++ [old] <+: Path.segments current := by
    intro hprefix
    have hlength := hprefix.length_le
    rw [List.length_append, List.length_singleton] at hlength
    omega
  rw [move_apply]
  simp only [hold, hnew, hlanding, Node.lookup_entry hcurrent, List.dropLast_concat, hopen, if_neg hbelow,
    if_neg houtside]
  cases hget : entries.get? old with
  | none => simp
  | some node =>
      have hne : old ≠ new := Entries.ne_of_get? hget hfree
      have hstay : Path.segments current ++ [new] ≠ Path.segments current ++ [old] := by
        simpa using Ne.symm hne
      dsimp only
      rw [if_neg hstay, Node.insertAt_removeAt_beside hcurrent hne hfree]
      constructor
      · intro h
        cases h
        exact ⟨node, rfl, rfl⟩
      · rintro ⟨_, hsame, rfl⟩
        cases hsame
        rfl

/-- Where no path leads to the new name, a rename and a move of an entry both succeed or both fail: they
succeed if the old name leads to something.  Afterwards each path leads to the same kind of node with the
same content, and each directory lists the same, except that the rename leaves the entry at its position
and the move puts it last. -/
theorem rename_agrees_with_move (volume : Volume) {current old new : String}
    (hcurrent : volume.root.HasDirectory current) (hold : Path.IsName old) (hdot : old ≠ ".")
    (hdots : old ≠ "..") (hplain : '/' ∉ new.toList) (hup : new ≠ "..")
    (hfree : volume.root.exists? (Path.resolve current new) = false) :
    ((∃ renamed, rename current old new volume = .ok () renamed) ↔
      ∃ moved, move current old new volume = .ok () moved) ∧
    ((∃ renamed, rename current old new volume = .ok () renamed) ↔
      volume.root.exists? (Path.resolve current old) = true) ∧
    ∀ renamed moved, rename current old new volume = .ok () renamed →
        move current old new volume = .ok () moved →
      (∀ path, (renamed.root.at? path).map Node.label = (moved.root.at? path).map Node.label) ∧
      (∀ path, Path.segments path ≠ Path.segments current →
        renamed.root.list path = moved.root.list path) ∧
      ∃ front node back, volume.root.entriesAt current = .ok (front ++ (old, node) :: back) ∧
        renamed.root.entriesAt current = .ok (front ++ (new, node) :: back) ∧
        moved.root.entriesAt current = .ok (front ++ back ++ [(new, node)]) := by
  obtain ⟨entries, hentries⟩ := hcurrent
  rw [Node.entriesAt_eq_ok_iff] at hentries
  obtain ⟨hname, hnewDot⟩ := isName_of_free hentries hplain hfree
  have holdPlace := Path.segments_resolve_of_isName hold hdot hdots current
  have hnewPlace := Path.segments_resolve_of_isName hname hnewDot hup current
  rw [Node.exists?_eq_false_iff, hnewPlace, Node.lookup_entry hentries] at hfree
  have hrename : ∀ renamed, rename current old new volume = .ok () renamed ↔ entries.get? old ≠ none ∧
      renamed = volume.saved (volume.root.withEntries (entries.rename old new) (Path.segments current)) := by
    intro renamed
    simp [rename_eq_ok_iff, hentries, hfree]
  have hmove : ∀ moved, move current old new volume = .ok () moved ↔ ∃ node, entries.get? old = some node ∧
      moved = volume.saved
        (volume.root.withEntries (entries.erase old ++ [(new, node)]) (Path.segments current)) := fun _ =>
    move_beside_eq_ok_iff hentries holdPlace hnewPlace hfree
  have hrenames : (∃ renamed, rename current old new volume = .ok () renamed) ↔ entries.get? old ≠ none := by
    simp [hrename]
  have hmoves : (∃ moved, move current old new volume = .ok () moved) ↔ entries.get? old ≠ none := by
    simp only [hmove, Option.ne_none_iff_exists']
    rw [exists_comm]
    simp
  refine ⟨hrenames.trans hmoves.symm, ?_, ?_⟩
  · rw [hrenames, Node.exists?_eq_true_iff, holdPlace, Node.lookup_entry hentries]
  · intro renamed moved hrenamed hmoved
    obtain ⟨_, rfl⟩ := (hrename renamed).mp hrenamed
    obtain ⟨node, hnode, rfl⟩ := (hmove moved).mp hmoved
    obtain ⟨front, back, hsplit, herased, hcalled⟩ := Entries.exists_append_of_get? hnode
    have hagree := Node.withEntries_congr_of_get? hentries (Entries.get?_rename hnode hfree)
    refine ⟨fun path => ?_, fun path hpath => ?_, front, node, back, ?_, ?_, ?_⟩
    · exact Node.map_label_at? (hagree (Path.segments path)).1
    · exact Node.list_congr (hagree (Path.segments path)).1 ((hagree (Path.segments path)).2 hpath)
    · rw [← hsplit]
      exact Node.entriesAt_eq_ok_iff.mpr hentries
    · rw [← hcalled new]
      exact Node.entriesAt_withEntries hentries _
    · rw [← herased]
      exact Node.entriesAt_withEntries hentries _

/-- A directory with something in it, between two other entries. -/
theorem rename_agrees_with_move_between :
    let entries : Entries Node := [("a", .file "1"), ("d", .directory [("x", .file "2")]), ("c", .empty)]
    let volume : Volume := ⟨Node.directory [("w", .directory entries)], []⟩
    ∃ renamed moved, rename "//w/" "d" "e" volume = .ok () renamed ∧
      move "//w/" "d" "e" volume = .ok () moved ∧
      (∀ path, (renamed.root.at? path).map Node.label = (moved.root.at? path).map Node.label) ∧
      renamed.root.list "/w/e" = moved.root.list "/w/e" ∧
      renamed.root.list "/w" = .ok [("a", .file), ("e", .directory), ("c", .directory)] ∧
      moved.root.list "/w" = .ok [("a", .file), ("c", .directory), ("e", .directory)] := by
  intro entries volume
  have hentries : volume.root.lookup (Path.segments "//w/") = some (.directory entries) := by rfl
  have hcurrent : volume.root.HasDirectory "//w/" := ⟨entries, Node.entriesAt_eq_ok_iff.mpr hentries⟩
  have hfree : volume.root.exists? (Path.resolve "//w/" "e") = false := by decide
  have hold : Path.IsName "d" := by simp [Path.IsName]
  obtain ⟨hboth, hfound, hagree⟩ := rename_agrees_with_move volume hcurrent hold (by decide)
    (by decide) (by decide) (by decide) hfree
  obtain ⟨renamed, hrenamed⟩ := hfound.mpr (by decide)
  obtain ⟨moved, hmoved⟩ := hboth.mp ⟨renamed, hrenamed⟩
  obtain ⟨hsame, hlists, _⟩ := hagree renamed moved hrenamed hmoved
  refine ⟨renamed, moved, hrenamed, hmoved, hsame, hlists "/w/e" (by decide), ?_, ?_⟩
  · cases hrenamed
    decide
  · obtain ⟨node, hnode, rfl⟩ := (move_beside_eq_ok_iff hentries (by decide) (by decide) (by decide)).mp hmoved
    cases hnode
    decide

end Edit

end VirtualShell
