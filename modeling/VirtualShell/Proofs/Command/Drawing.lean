import VirtualShell.Command.Listing
import VirtualShell.Proofs.Search.Find
import VirtualShell.Proofs.State.Failures
import VirtualShell.Proofs.State.Steps

/-! # Drawn trees

The drawing of a tree keeps the branches that are still to be drawn in a list.  It comes to the lines of a
sketch made by recursion over the tree, in which each line only depends on the way to its node.  The
nodes are those that a search for every name finds, without the ones on whose way a hidden name stands.
-/

namespace VirtualShell

open Command

/-! ## Sketches -/

namespace Node

def shows (all : Bool) (name : String) : Bool := all || !isHidden name

mutual
/-- The shown nodes below a node, each right before those below it, in the order of the entries.  The way to
each has the names that lead to it, and with each name whether no shown sibling follows there. -/
def sketch (all : Bool) : Node → List (List (String × Bool) × Node)
  | file _ => []
  | directory entries => sketchEntries all entries

def sketchEntries (all : Bool) : List (String × Node) → List (List (String × Bool) × Node)
  | [] => []
  | (name, node) :: rest =>
    if shows all name then
      let step := (name, !rest.any fun entry => shows all entry.1)
      ([step], node) :: (sketch all node).map (fun place => (step :: place.1, place.2)) ++
        sketchEntries all rest
    else sketchEntries all rest
end

end Node

namespace Command

/-- The text for the node at the end of a way.  Each ancestor indents it, by blanks below the last one of
its siblings and by a bar otherwise; a corner or a tee stands before the name. -/
def wayText : List (String × Bool) → String
  | [] => ""
  | [(name, last)] => (if last then "└── " else "├── ") ++ name
  | (_, last) :: way => (if last then "    " else "│   ") ++ wayText way

def wayLine (way : List (String × Bool)) (node : Node) : Line :=
  if node.isDirectory then .directory (wayText way ++ "/") else .output (wayText way)

namespace Branch

def ofPlace (indent : String) : List (String × Bool) → Node → Branch
  | [], node => ⟨indent, "", node, true⟩
  | [(name, last)], node => ⟨indent, name, node, last⟩
  | (_, last) :: way, node => ofPlace (indent ++ (if last then "    " else "│   ")) way node

variable {all : Bool}

theorem ofEntries_cons (indent name : String) (node : Node) (rest : List (String × Node)) :
    ofEntries indent ((name, node) :: rest) =
      ⟨indent, name, node, rest.isEmpty⟩ :: ofEntries indent rest := by
  cases rest <;> rfl

theorem grow_cons (branch : Branch) (rest : List Branch) :
    grow all (branch :: rest) = branch :: grow all (branch.children all ++ rest) := by
  rw [grow]

theorem grow_append (first second : List Branch) :
    grow all (first ++ second) = grow all first ++ grow all second := by
  induction first using grow.induct all with
  | case1 =>
      have hnothing : grow all [] = [] := by rw [grow]
      rw [hnothing, List.nil_append, List.nil_append]
  | case2 branch rest ih =>
      rw [List.append_assoc] at ih
      rw [List.cons_append, grow_cons, grow_cons, ih, List.cons_append]

theorem ofPlace_cons {way : List (String × Bool)} (hne : way ≠ []) (indent name : String) (last : Bool)
    (node : Node) :
    ofPlace indent ((name, last) :: way) node = ofPlace (nextIndent ⟨indent, name, node, last⟩) way node := by
  cases way with
  | nil => exact absurd rfl hne
  | cons step way => rfl

theorem line_ofPlace {way : List (String × Bool)} (hne : way ≠ []) (indent : String) (node : Node) :
    (ofPlace indent way node).line =
      if node.isDirectory then .directory (indent ++ wayText way ++ "/")
      else .output (indent ++ wayText way) := by
  induction way generalizing indent with
  | nil => exact absurd rfl hne
  | cons step way ih =>
      obtain ⟨name, last⟩ := step
      cases way with
      | nil =>
          simp only [ofPlace, line, wayText, String.append_assoc]
          rfl
      | cons next way =>
          have hrest := ih (List.cons_ne_nil _ _) (indent ++ (if last then "    " else "│   "))
          simp only [ofPlace, wayText] at hrest ⊢
          rw [hrest]
          simp only [String.append_assoc]

end Branch
end Command

namespace Node

variable {all : Bool}

theorem ne_nil_of_mem_sketchEntries {entries : List (String × Node)} :
    ∀ place ∈ sketchEntries all entries, place.1 ≠ [] := by
  induction entries with
  | nil => simp [sketchEntries]
  | cons entry rest ih =>
      obtain ⟨name, node⟩ := entry
      rw [sketchEntries]
      split
      · simp only [List.cons_append, List.forall_mem_cons, List.forall_mem_append, List.forall_mem_map]
        exact ⟨List.cons_ne_nil _ _, fun _ _ => List.cons_ne_nil _ _, ih⟩
      · exact ih

theorem ne_nil_of_mem_sketch {node : Node} : ∀ place ∈ node.sketch all, place.1 ≠ [] := by
  cases node with
  | file content => simp [sketch]
  | directory entries => exact ne_nil_of_mem_sketchEntries

open Branch

mutual
/-- What grows from the branches below a node is what its sketch says. -/
theorem grow_shown (all : Bool) (indent : String) : (node : Node) →
    grow all (ofEntries indent (shown all node)) =
      (node.sketch all).map fun place => ofPlace indent place.1 place.2
  | file _ => by
      change grow all [] = []
      rw [grow]
  | directory entries => grow_shownEntries all indent entries

theorem grow_shownEntries (all : Bool) (indent : String) : (entries : List (String × Node)) →
    grow all (ofEntries indent (entries.filter fun entry => shows all entry.1)) =
      (sketchEntries all entries).map fun place => ofPlace indent place.1 place.2
  | [] => by
      change grow all [] = []
      rw [grow]
  | (name, node) :: rest => by
      by_cases hshown : shows all name
      · have hlast : (rest.filter fun entry => shows all entry.1).isEmpty =
            !rest.any fun entry => shows all entry.1 := by
          rw [Bool.eq_iff_iff]
          simp
        have hbelow : ∀ last, grow all (children all ⟨indent, name, node, last⟩) =
            (node.sketch all).map fun place => ofPlace indent ((name, last) :: place.1) place.2 := by
          intro last
          rw [children, grow_shown all _ node]
          refine List.map_congr_left fun place hplace => ?_
          exact (ofPlace_cons (ne_nil_of_mem_sketch place hplace) indent name last place.2).symm
        rw [List.filter_cons_of_pos (by exact hshown), ofEntries_cons, grow_cons, grow_append, hbelow, hlast,
          grow_shownEntries all indent rest, sketchEntries, if_pos hshown]
        simp [ofPlace, Function.comp_def]
      · rw [List.filter_cons_of_neg (by exact hshown), grow_shownEntries all indent rest, sketchEntries,
          if_neg hshown]
end

mutual
/-- The sketch shows the nodes with no hidden name on the way to them. -/
theorem places_sketch (all : Bool) : (node : Node) →
    (node.sketch all).map (fun place => (place.1.map (·.1), place.2)) =
      node.preorder.filter fun place => place.1.all (shows all)
  | file _ => rfl
  | directory entries => places_sketchEntries all entries

theorem places_sketchEntries (all : Bool) : (entries : List (String × Node)) →
    (sketchEntries all entries).map (fun place => (place.1.map (·.1), place.2)) =
      (preorderEntries entries).filter fun place => place.1.all (shows all)
  | [] => rfl
  | (name, node) :: rest => by
      have hbelow := places_sketch all node
      have hrest := places_sketchEntries all rest
      rw [sketchEntries, preorderEntries]
      by_cases hshown : shows all name
      · have hkept : ((preorder node).map fun place => (name :: place.1, place.2)).filter
            (fun place => place.1.all (shows all)) =
            (node.sketch all).map fun place => (name :: place.1.map (·.1), place.2) := by
          simp only [List.filter_map, Function.comp_def, List.all_cons, hshown, Bool.true_and]
          rw [← hbelow, List.map_map]
          rfl
        rw [if_pos hshown, List.filter_append, List.filter_cons_of_pos (by simpa using hshown), hkept, ← hrest]
        simp [Function.comp_def]
      · rw [if_neg hshown, hrest, List.filter_append, List.filter_cons_of_neg (by simpa using hshown),
          List.filter_map]
        simp [Function.comp_def, hshown]
end

end Node

/-! ## Walks from any path -/

namespace Found

def along (path : String) (place : List String × Node) : Found :=
  ⟨place.1.foldl Path.child path, place.1.getLastD (Path.base path), place.2⟩

theorem along_cons {names : List String} (hne : names ≠ []) (path name : String) (node : Node) :
    along path (name :: names, node) = along (Path.child path name) (names, node) := by
  cases names with
  | nil => exact absurd rfl hne
  | cons next names => rfl

mutual
theorem walk_along (path name : String) : (node : Node) →
    walk true (children ⟨path, name, node⟩) = node.preorder.map (along path)
  | .file _ => by
      change walk true [] = []
      rw [walk]
  | .directory entries => walk_entries_along path entries

theorem walk_entries_along (path : String) : (entries : List (String × Node)) →
    walk true (entries.map fun entry => ⟨Path.child path entry.1, entry.1, entry.2⟩) =
      (Node.preorderEntries entries).map (along path)
  | [] => by
      rw [List.map_nil, walk]
      rfl
  | (name, node) :: rest => by
      have hbelow : (node.preorder.map fun place => (name :: place.1, place.2)).map (along path) =
          node.preorder.map (along (Path.child path name)) := by
        rw [List.map_map]
        refine List.map_congr_left fun place hplace => ?_
        exact along_cons (Node.mem_preorder_iff.mp hplace).1 path name place.2
      rw [List.map_cons, walk_true_cons, walk_true_append, walk_along _ name node,
        walk_entries_along path rest, Node.preorderEntries, List.map_append, List.map_cons, hbelow]
      rfl
end

end Found

namespace Node

theorem find_star_along {root node : Node} {start : String} (hat : root.at? start = .ok node) :
    root.find start "*" true = .ok (node.preorder.map (Found.along (Path.canonical start))) := by
  have hall : NamePattern.ofText "*" = .ok .any := rfl
  rw [find_of_ofText hat hall, descendants, Found.walk_along]
  exact congrArg Except.ok (List.filter_eq_self.mpr fun _ _ => rfl)

end Node
/-! ## The command -/

namespace Command

open Branch

variable {all : Bool} {state : State} {given : List String} {arguments : Arguments} {entries : Entries Node}

theorem draw_eq (all : Bool) (node : Node) :
    draw all node = (node.sketch all).map fun place => ofPlace "" place.1 place.2 :=
  Node.grow_shown all "" node

theorem lines_draw (all : Bool) (node : Node) :
    (draw all node).map Branch.line = (node.sketch all).map fun place => wayLine place.1 place.2 := by
  rw [draw_eq, List.map_map]
  refine List.map_congr_left fun place hplace => ?_
  change (ofPlace "" place.1 place.2).line = wayLine place.1 place.2
  rw [line_ofPlace (Node.ne_nil_of_mem_sketch place hplace), String.empty_append, wayLine]

theorem style_line (branch : Branch) :
    branch.line.style = if branch.node.isDirectory then .directory else .output := by
  unfold Branch.line
  dsimp only
  split <;> rfl

theorem totals_eq (drawn : List Branch) :
    let lines := drawn.map Branch.line
    let directories := (lines.filter (·.style = .directory)).length
    let files := (lines.filter (·.style = .output)).length
    totals drawn = toString directories ++ (if directories = 1 then " directory, " else " directories, ") ++
      toString files ++ (if files = 1 then " file" else " files") := by
  intro lines directories files
  have hdirectories : directories = (drawn.filter (·.node.isDirectory)).length := by
    simp only [directories, lines, List.filter_map, List.length_map]
    congr 2
    funext branch
    cases h : branch.node.isDirectory <;> simp [style_line, h]
  have hfiles : files = (drawn.filter (!·.node.isDirectory)).length := by
    simp only [files, lines, List.filter_map, List.length_map]
    congr 2
    funext branch
    cases h : branch.node.isDirectory <;> simp [style_line, h]
  rw [hdirectories, hfiles]
  rfl

theorem tree_of_at? (hgiven : parseFlags "tree" ['a'] given = .ok arguments)
    (hat : state.volume.root.at? (Path.resolve state.session.current (arguments.operands.headD ".")) =
      .ok (.directory entries)) :
    let drawn := draw (arguments.has 'a') (.directory entries)
    tree given state = .ok (.directory (arguments.operands.headD ".") :: drawn.map Branch.line ++
      [.output "", .info (totals drawn)]) state := by
  have harguments : Command.arguments "tree" ['a'] given state = .ok arguments state := by
    rw [Command.arguments, hgiven]
    rfl
  unfold tree
  rw [Action.bind_of_eq_ok harguments]
  dsimp only
  rw [Action.root_bind, Action.directory_bind, Action.expect_bind hat]
  rfl

/-- A drawn directory has a heading, the lines of its sketch and, behind an empty line, the numbers of the
lines for directories and for files among them.  The nodes in the sketch are those that a search for
every name finds below the directory, in the same order.  Unless everything is to be shown, those with a
hidden name on the way to them are left out, and nothing else is. -/
theorem tree_draws (hgiven : parseFlags "tree" ['a'] given = .ok arguments)
    (hat : state.volume.root.at? (Path.resolve state.session.current (arguments.operands.headD ".")) =
      .ok (.directory entries)) :
    let all := arguments.has 'a'
    let target := arguments.operands.headD "."
    let start := Path.resolve state.session.current target
    let places := (Node.directory entries).sketch all
    let lines := places.map fun place => wayLine place.1 place.2
    let directories := (lines.filter (·.style = .directory)).length
    let files := (lines.filter (·.style = .output)).length
    let below := (Node.directory entries).preorder
    tree given state = .ok (.directory target :: lines ++
      [.output "", .info (toString directories ++ (if directories = 1 then " directory, " else " directories, ") ++
        toString files ++ (if files = 1 then " file" else " files"))]) state ∧
    directories + files = lines.length ∧
    state.volume.root.find start "*" true = .ok (below.map (Found.along (Path.canonical start))) ∧
    places.map (fun place => (place.1.map (·.1), place.2)) =
      below.filter fun place => all || place.1.all (!isHidden ·) := by
  intro all target start places lines directories files below
  have hlines : (draw all (.directory entries)).map Branch.line = lines := lines_draw all _
  have htotals := totals_eq (draw all (.directory entries))
  rw [hlines] at htotals
  refine ⟨?_, ?_, Node.find_star_along hat, ?_⟩
  · rw [tree_of_at? hgiven hat, hlines, htotals]
  · have hother : lines.filter (·.style = .output) = lines.filter fun line => !decide (line.style = .directory) := by
      refine List.filter_congr fun line hline => ?_
      obtain ⟨branch, _, rfl⟩ := List.mem_map.mp (hlines ▸ hline)
      cases h : branch.node.isDirectory <;> simp [style_line, h]
    rw [List.length_eq_length_filter_add (·.style = .directory), ← hother]
  · have hshown : ∀ place : List String × Node, place.1.all (Node.shows all) =
        (all || place.1.all (!isHidden ·)) := by
      intro place
      cases all with
      | false => rfl
      | true => exact List.all_eq_true.mpr fun _ _ => rfl
    simp only [places, below, Node.places_sketch, hshown]

/-- A hidden entry behind the last shown one, and one in front of the only shown one. -/
theorem tree_draws_hidden :
    let inside : Entries Node :=
      [("a", .directory [(".b", .file "1"), ("c", .file "2")]), ("d", .file "3"), (".e", .empty)]
    let root := Node.directory [("x", .directory inside)]
    let state : State := ⟨Session.start "user" "webterm" "/" false, ⟨root, []⟩, .epoch⟩
    parseFlags "tree" ['a'] ["x"] = .ok ⟨[], ["x"]⟩ ∧ root.at? (Path.resolve "/" "x") = .ok (.directory inside) ∧
      tree ["x"] state = .ok [.directory "x", .directory "├── a/", .output "│   └── c", .output "└── d",
        .output "", .info "1 directory, 2 files"] state ∧
      ∃ found, root.find (Path.resolve "/" "x") "*" true = .ok found ∧
        found.map (·.path) = ["/x/a", "/x/a/.b", "/x/a/c", "/x/d", "/x/.e"] := by
  intro inside root state
  have hgiven : parseFlags "tree" ['a'] ["x"] = .ok ⟨[], ["x"]⟩ := rfl
  have hat : root.at? (Path.resolve "/" "x") = .ok (.directory inside) := rfl
  obtain ⟨hlines, _, hfound, _⟩ := @tree_draws state _ _ _ hgiven hat
  refine ⟨hgiven, hat, hlines.trans ?_, _, hfound, by decide +kernel⟩
  exact congrArg (EStateM.Result.ok · state) (by decide +kernel)

end Command

end VirtualShell
