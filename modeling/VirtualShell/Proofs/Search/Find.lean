import VirtualShell.Proofs.Pattern.Wildcards
import VirtualShell.Proofs.Search.Walk
import VirtualShell.Search.Find

/-! # What a search by name finds

A search below a path lists nodes below that path in the order of the walk.  The pattern of a single
star lets all of them through, each once and under a path that leads to it; any other pattern picks
among them, unless its expression is too large.
-/

namespace VirtualShell.Node

variable {root node inner : Node} {start : String} {names : List String}

/-! ## Paths below a path -/

theorem at?_canonical (hat : root.at? start = .ok node) : root.at? (Path.canonical start) = .ok node := by
  rw [at?_eq_ok_iff, Path.segments_canonical]
  exact at?_eq_ok_iff.mp hat

theorem isName_of_below (hnode : node.Named Path.IsName) (h : Occurs names inner node) :
    ∀ name ∈ Path.segments start ++ names, Path.IsName name := by
  intro name hname
  rcases List.mem_append.mp hname with hstart | hbelow
  · exact Path.isName_of_mem_segments hstart
  · exact h.allowed_of_mem hnode name hbelow

/-- A node below a path is found again under its own path, and that path ends with its name. -/
theorem at?_below (hroot : root.Named Path.IsName) (hat : root.at? start = .ok node)
    (h : Occurs names inner node) :
    root.at? (Found.below start (names, inner)).path = .ok inner := by
  have hlookup : root.lookup (Path.segments start) = some node := at?_eq_ok_iff.mp hat
  have hnode : node.Named Path.IsName := hroot.lookup hlookup
  have hinner : root.lookup (Path.segments start ++ names) = some inner := by
    rw [lookup_append_of_some hlookup]
    exact h.lookup_eq hnode
  exact (at?_ofSegments_eq_ok_iff (isName_of_below hnode h)).mpr hinner

theorem base_below (hnode : node.Named Path.IsName) (h : Occurs names inner node) :
    Path.base (Found.below start (names, inner)).path = (Found.below start (names, inner)).name :=
  Path.base_ofSegments (isName_of_below hnode h)

/-- Different places below a path have different paths. -/
theorem nodup_paths_below (hnode : node.Named Path.IsName) :
    ((node.preorder.map (Found.below start)).map (·.path)).Nodup := by
  have hpaths : (node.preorder.map (Found.below start)).map (·.path) =
      (node.preorder.map (·.1)).map fun names => Path.ofSegments (Path.segments start ++ names) := by
    rw [List.map_map, List.map_map]
    rfl
  have hnames : ∀ names ∈ node.preorder.map (·.1),
      ∀ name ∈ Path.segments start ++ names, Path.IsName name := by
    intro names hmem
    obtain ⟨⟨names, inner⟩, hplace, rfl⟩ := List.mem_map.mp hmem
    exact isName_of_below hnode (mem_preorder_iff.mp hplace).2
  rw [hpaths]
  refine List.Nodup.map_on ?_ (nodup_preorder hnode)
  intro first hfirst second hsecond heq
  exact List.append_cancel_left (Path.ofSegments_inj (hnames first hfirst) (hnames second hsecond) heq)

/-- What a walk below a path finds is found again under the path that it gives. -/
theorem at?_of_mem_places (hroot : root.Named Path.IsName) (hat : root.at? start = .ok node)
    {deep : Bool} {found : Found} (h : found ∈ (node.places deep).map (Found.below start)) :
    found.path.toList.head? = some '/' ∧ root.at? found.path = .ok found.node := by
  obtain ⟨⟨names, inner⟩, hplace, rfl⟩ := List.mem_map.mp h
  have hoccurs : Occurs names inner node := (mem_preorder_iff.mp (places_subset deep node hplace)).2
  exact ⟨Path.head?_ofSegments _, at?_below hroot hat hoccurs⟩

/-! ## Searches -/

theorem find_of_at? (hat : root.at? start = .ok node) (pattern : String) (deep : Bool) :
    root.find start pattern deep = (NamePattern.ofText pattern).map fun condition =>
      (node.descendants (Path.canonical start) deep).filter (condition.accepts ·.name) := by
  unfold find
  rw [hat]
  cases NamePattern.ofText pattern <;> rfl

theorem find_of_ofText (hat : root.at? start = .ok node) {pattern : String} {condition : NamePattern}
    (hcondition : NamePattern.ofText pattern = .ok condition) (deep : Bool) :
    root.find start pattern deep =
      .ok ((node.descendants (Path.canonical start) deep).filter (condition.accepts ·.name)) := by
  rw [find_of_at? hat, hcondition]
  rfl

theorem find_eq (hroot : root.Named Path.IsName) (hat : root.at? start = .ok node) (pattern : String)
    (deep : Bool) :
    root.find start pattern deep = (NamePattern.ofText pattern).map fun condition =>
      ((node.places deep).map (Found.below start)).filter (condition.accepts ·.name) := by
  have hnode : node.Named Path.IsName := hroot.lookup (at?_eq_ok_iff.mp hat)
  rw [find_of_at? hat, descendants_canonical hnode]

theorem find_star (hroot : root.Named Path.IsName) (hat : root.at? start = .ok node) (deep : Bool) :
    root.find start "*" deep = .ok ((node.places deep).map (Found.below start)) := by
  have hall : NamePattern.ofText "*" = .ok .any := rfl
  have hkept : ((node.places deep).map (Found.below start)).filter
      (fun found => NamePattern.any.accepts found.name) = (node.places deep).map (Found.below start) :=
    List.filter_eq_self.mpr fun _ _ => rfl
  rw [find_eq hroot hat, hall]
  exact congrArg Except.ok hkept

theorem filesBelow_eq (hroot : root.Named Path.IsName) (hat : root.at? start = .ok node) (deep : Bool) :
    root.filesBelow start deep =
      (((node.places deep).map (Found.below start)).filter (·.node.kind = .file)).map (·.path) := by
  have hnode : node.Named Path.IsName := hroot.lookup (at?_eq_ok_iff.mp hat)
  have hkind : ∀ found : Found, (!found.node.isDirectory) = decide (found.node.kind = .file) := by
    intro found
    cases found.node <;> rfl
  unfold filesBelow
  rw [hat]
  dsimp only
  rw [descendants_canonical hnode]
  simp only [hkind]

/-! ## Everything below a path -/

/-- With the pattern of a single star a deep search lists every node below its start once, in the
order in which each node comes right before what is below it, and a flat search lists the entries.
Every path it gives leads to the node that it is given with.  The list of files and the patterns that
are not too large pick from the same nodes in the same order. -/
theorem find_complete (hroot : root.WellFormed) (hat : root.at? start = .ok node) :
    let everything := node.preorder.map (Found.below start)
    let entries := node.firstLevel.map (Found.below start)
    root.find start "*" true = .ok everything ∧ root.find start "*" false = .ok entries ∧
      (∀ found, found ∈ everything ↔ ∃ names inner, names ≠ [] ∧ Occurs names inner node ∧
        found = Found.below start (names, inner)) ∧
      (everything.map (·.path)).Nodup ∧
      (∀ found ∈ everything, found.path.toList.head? = some '/' ∧
        root.at? found.path = .ok found.node ∧ Path.base found.path = found.name) ∧
      ∀ deep, let listed := if deep then everything else entries
        (∀ pattern, ¬ NamePattern.TooLarge pattern → ∃ condition,
          NamePattern.ofText pattern = .ok condition ∧
            root.find start pattern deep = .ok (listed.filter (condition.accepts ·.name))) ∧
        (∀ pattern, NamePattern.TooLarge pattern → root.find start pattern deep =
          .error (.invalidPattern pattern PatternError.tooLarge.reason)) ∧
        root.filesBelow start deep = (listed.filter (·.node.kind = .file)).map (·.path) := by
  intro everything entries
  have hnode : node.Named Path.IsName := hroot.named.lookup (at?_eq_ok_iff.mp hat)
  have hlisted : ∀ found, found ∈ everything ↔ ∃ names inner, names ≠ [] ∧ Occurs names inner node ∧
      found = Found.below start (names, inner) := by
    intro found
    constructor
    · intro hfound
      obtain ⟨⟨names, inner⟩, hplace, rfl⟩ := List.mem_map.mp hfound
      have hoccurs := mem_preorder_iff.mp hplace
      exact ⟨names, inner, hoccurs.1, hoccurs.2, rfl⟩
    · rintro ⟨names, inner, hne, hoccurs, rfl⟩
      exact List.mem_map_of_mem (mem_preorder_iff.mpr ⟨hne, hoccurs⟩)
  have hplaces : ∀ deep, (node.places deep).map (Found.below start) =
      if deep then everything else entries := by
    intro deep
    cases deep <;> rfl
  refine ⟨find_star hroot.named hat true, find_star hroot.named hat false, hlisted,
    nodup_paths_below hnode, ?_, ?_⟩
  · intro found hfound
    have hdeep : found ∈ (node.places true).map (Found.below start) := hfound
    obtain ⟨habsolute, hthere⟩ := at?_of_mem_places hroot.named hat hdeep
    obtain ⟨names, inner, _, hoccurs, rfl⟩ := (hlisted found).mp hfound
    exact ⟨habsolute, hthere, base_below hnode hoccurs⟩
  · intro deep
    dsimp only
    rw [← hplaces deep]
    refine ⟨?_, ?_, filesBelow_eq hroot.named hat deep⟩
    · intro pattern hsize
      obtain ⟨condition, hcondition⟩ := NamePattern.exists_ofText_eq_ok hsize
      refine ⟨condition, hcondition, ?_⟩
      rw [find_eq hroot.named hat, hcondition]
      rfl
    · intro pattern hsize
      rw [find_eq hroot.named hat, NamePattern.ofText_of_tooLarge hsize]
      rfl

/-- The start may be written with slashes that the paths below it do not have. -/
theorem find_complete_slashes :
    let inside := directory [("b", directory [("c", file "1")]), ("d", file "2")]
    let root := directory [("a", inside)]
    root.WellFormed ∧ root.at? "//a/" = .ok inside ∧
      root.find "//a/" "*" true = .ok [⟨"/a/b", "b", directory [("c", file "1")]⟩,
        ⟨"/a/b/c", "c", file "1"⟩, ⟨"/a/d", "d", file "2"⟩] := by
  intro inside root
  have hfile : ∀ content, (file content).Named Path.IsName := fun content => .file content
  have hletter : ∀ name ∈ ["a", "b", "c", "d"], Path.IsName name := by
    simp [Path.IsName]
  have hinner : (directory [("c", file "1")]).Named Path.IsName := by
    simp [Named.directory_iff, hfile, hletter]
  have hinside : inside.Named Path.IsName := by
    simp [inside, Named.directory_iff, hfile, hletter, hinner]
  have hroot : root.WellFormed := by
    refine ⟨rfl, ?_⟩
    simp [root, Named.directory_iff, hletter, hinside]
  have hat : root.at? "//a/" = .ok inside := rfl
  exact ⟨hroot, hat, (find_complete hroot hat).1⟩

/-- So many stars are refused, although every name consists of runs of characters. -/
theorem find_refuses_stars :
    let root := directory [("a", file "")]
    let pattern := String.ofList (List.replicate 120000 '*')
    root.WellFormed ∧ root.at? "/" = .ok root ∧
      root.find "/" pattern true =
        .error (.invalidPattern pattern "compiled regex exceeded size limit") ∧
      ∀ accepted, root.find "/" pattern true ≠ .ok accepted := by
  intro root pattern
  have hroot : root.WellFormed := by
    refine ⟨rfl, ?_⟩
    simp [root, Named.directory_iff, Named.file, Path.IsName]
  have hat : root.at? "/" = .ok root := rfl
  have hlarge : NamePattern.TooLarge pattern := NamePattern.tooLarge_stars (by omega)
  have hrefused : root.find "/" pattern true =
      .error (.invalidPattern pattern "compiled regex exceeded size limit") := by
    rw [find_eq hroot.named hat, NamePattern.ofText_of_tooLarge hlarge]
    rfl
  refine ⟨hroot, hat, hrefused, ?_⟩
  intro accepted
  rw [hrefused]
  nofun

end VirtualShell.Node
