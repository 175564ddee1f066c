import VirtualShell.Proofs.Search.Find

/-! # Searches for lines

The search of a directory gives for each file below it what a search of that file alone gives, and
leaves out the files without a match.
-/

namespace VirtualShell

/-- The files with the lines that a search gives for them, without those for which it gives none. -/
def FileMatches.ofFiles (search : String → Option (List LineMatch)) (files : List String) :
    List FileMatches :=
  (files.map fun file => ⟨file, (search file).getD []⟩).filter (·.lines ≠ [])

namespace FileMatches

theorem ofFiles_cons {search : String → Option (List LineMatch)} {file : String} {lines : List LineMatch}
    (h : search file = some lines) (rest : List String) :
    ofFiles search (file :: rest) =
      if lines = [] then ofFiles search rest else ⟨file, lines⟩ :: ofFiles search rest := by
  unfold ofFiles
  rw [List.map_cons, h, Option.getD_some]
  by_cases hlines : lines = []
  · rw [if_pos hlines, List.filter_cons_of_neg (by simpa using hlines)]
  · rw [if_neg hlines, List.filter_cons_of_pos (by simpa using hlines)]

theorem ofFiles_sublist (search : String → Option (List LineMatch)) {files more : List String}
    (h : files.Sublist more) : (ofFiles search files).Sublist (ofFiles search more) :=
  (h.map _).filter _

end FileMatches

namespace Node

variable {root node : Node} {start pattern : String} {caseSensitive : Bool} {compiled : Pattern}

/-! ## One file -/

theorem searchFile_eq (hpattern : linePattern pattern caseSensitive = .ok compiled)
    {current name content : String} (hat : root.at? (Path.resolve current name) = .ok (file content)) :
    root.searchFile current name pattern caseSensitive = some (matchingLines compiled content) := by
  have hcontent : root.contentOf current name = .ok content :=
    contentOf_eq_ok_iff.mpr (at?_eq_ok_iff.mp hat)
  unfold searchFile
  rw [hpattern, hcontent]

theorem searchFile_absolute (hpattern : linePattern pattern caseSensitive = .ok compiled)
    {path content : String} (hpath : path.toList.head? = some '/')
    (hat : root.at? path = .ok (file content)) :
    root.searchFile "/" path pattern caseSensitive = some (matchingLines compiled content) := by
  apply searchFile_eq hpattern
  rw [Path.resolve_absolute hpath]
  exact hat

theorem matchesIn_file (compiled : Pattern) (path content : String) :
    matchesIn compiled path (file content) =
      if matchingLines compiled content = [] then none
      else some ⟨path, matchingLines compiled content⟩ := by
  simp only [matchesIn]
  cases matchingLines compiled content <;> rfl

/-! ## The files below a directory -/

theorem filterMap_matchesIn (search : String → Option (List LineMatch)) {listed : List Found}
    (h : ∀ found ∈ listed, ∀ content, found.node = file content →
      search found.path = some (matchingLines compiled content)) :
    listed.filterMap (fun found => matchesIn compiled found.path found.node) =
      FileMatches.ofFiles search ((listed.filter (·.node.kind = .file)).map (·.path)) := by
  induction listed with
  | nil => rfl
  | cons found rest ih =>
      rw [List.forall_mem_cons] at h
      obtain ⟨hfound, hrest⟩ := h
      have hlater := ih hrest
      cases hnode : found.node with
      | directory entries =>
          have hnone : matchesIn compiled found.path found.node = none := by rw [hnode]; rfl
          have hkind : ¬ found.node.kind = .file := by rw [hnode]; nofun
          rw [List.filterMap_cons, hnone, List.filter_cons_of_neg (by simpa using hkind)]
          exact hlater
      | file content =>
          have hkind : found.node.kind = .file := by rw [hnode]; rfl
          rw [List.filterMap_cons, List.filter_cons_of_pos (by simpa using hkind), List.map_cons,
            FileMatches.ofFiles_cons (hfound content hnode), hnode, matchesIn_file, hlater]
          by_cases hlines : matchingLines compiled content = []
          · rw [if_pos hlines, if_pos hlines]
          · rw [if_neg hlines, if_neg hlines]

theorem filesBelow_sublist (hroot : root.Named Path.IsName) (hat : root.at? start = .ok node) :
    (root.filesBelow start false).Sublist (root.filesBelow start true) := by
  rw [filesBelow_eq hroot hat, filesBelow_eq hroot hat]
  apply List.Sublist.map
  apply List.Sublist.filter
  apply List.Sublist.map
  exact firstLevel_sublist node

/-- Every file below a path is found again from the root. -/
theorem at?_of_mem_filesBelow (hroot : root.Named Path.IsName) (hat : root.at? start = .ok node)
    {deep : Bool} {path : String} (h : path ∈ root.filesBelow start deep) :
    path.toList.head? = some '/' ∧ ∃ content, root.at? path = .ok (file content) := by
  rw [filesBelow_eq hroot hat] at h
  obtain ⟨found, hfound, rfl⟩ := List.mem_map.mp h
  obtain ⟨hlisted, hkind⟩ := List.mem_filter.mp hfound
  obtain ⟨hpath, hnode⟩ := at?_of_mem_places hroot hat hlisted
  refine ⟨hpath, ?_⟩
  cases hfile : found.node with
  | directory entries =>
      rw [hfile] at hkind
      cases hkind
  | file content =>
      rw [hfile] at hnode
      exact ⟨content, hnode⟩

theorem searchBelow_directory (hroot : root.Named Path.IsName) (hat : root.at? start = .ok node)
    (hnode : node.isDirectory) (hpattern : linePattern pattern caseSensitive = .ok compiled)
    (deep : Bool) :
    root.searchBelow start pattern deep caseSensitive =
      .ok (FileMatches.ofFiles (fun file => root.searchFile "/" file pattern caseSensitive)
        (root.filesBelow start deep)) := by
  have hnamed : node.Named Path.IsName := hroot.lookup (at?_eq_ok_iff.mp hat)
  have hsearch : ∀ found ∈ (node.places deep).map (Found.below start), ∀ content,
      found.node = file content →
        root.searchFile "/" found.path pattern caseSensitive = some (matchingLines compiled content) := by
    intro found hfound content hfile
    obtain ⟨hpath, hthere⟩ := at?_of_mem_places hroot hat hfound
    rw [hfile] at hthere
    exact searchFile_absolute hpattern hpath hthere
  have hmatches := filterMap_matchesIn (root.searchFile "/" · pattern caseSensitive) hsearch
  rw [filesBelow_eq hroot hat, ← hmatches, ← descendants_canonical hnamed]
  unfold searchBelow
  rw [hat, hpattern]
  exact if_pos hnode

theorem searchBelow_file {content : String} (hat : root.at? start = .ok (file content))
    (hpattern : linePattern pattern caseSensitive = .ok compiled) (deep : Bool) :
    root.searchBelow start pattern deep caseSensitive =
      .ok (FileMatches.ofFiles (fun file => root.searchFile "/" file pattern caseSensitive)
        [Path.canonical start]) := by
  have hsearch := searchFile_absolute hpattern (Path.head?_ofSegments (Path.segments start))
    (at?_canonical hat)
  rw [FileMatches.ofFiles_cons hsearch]
  unfold searchBelow
  rw [hat, hpattern]
  change Except.ok (matchesIn compiled (Path.canonical start) (file content)).toList = _
  rw [matchesIn_file]
  by_cases hlines : matchingLines compiled content = []
  · rw [if_pos hlines, if_pos hlines]
    rfl
  · rw [if_neg hlines, if_neg hlines]
    rfl

end Node

end VirtualShell
