import VirtualShell.Proofs.Tree.Preorder
import VirtualShell.Search.Walk

/-! # The walk of a tree

The walk keeps the nodes that are still to be visited in a list.  It finds the nodes below its start in
the order of the recursive listing, each under the absolute path of the names that lead to it.
-/

namespace VirtualShell

namespace Found

def ofPlace (names : List String) (node : Node) : Found := ⟨Path.ofSegments names, names.getLastD "/", node⟩

variable {first second rest : List Found} {names : List String}

theorem children_ofPlace (h : ∀ name ∈ names, Path.IsName name) (node : Node) :
    (ofPlace names node).children =
      node.firstLevel.map fun place => ofPlace (names ++ place.1) place.2 := by
  cases node with
  | file content => rfl
  | directory entries =>
      change entries.map (fun entry => (⟨Path.child (Path.ofSegments names) entry.1, entry.1, entry.2⟩ : Found)) =
        (entries.map fun entry => ([entry.1], entry.2)).map fun place => ofPlace (names ++ place.1) place.2
      rw [List.map_map]
      refine List.map_congr_left ?_
      intro entry _
      simp [ofPlace, Path.child_ofSegments h]

/-! ## Pending nodes -/

theorem walk_false (pending : List Found) : walk false pending = pending := by
  induction pending with
  | nil => rw [walk]
  | cons found rest ih =>
      rw [walk]
      simp only [Bool.false_eq_true, if_false, List.nil_append, ih]

theorem walk_true_cons (found : Found) (rest : List Found) :
    walk true (found :: rest) = found :: walk true (found.children ++ rest) := by
  rw [walk]
  simp only [if_true]

theorem walk_true_append (first second : List Found) :
    walk true (first ++ second) = walk true first ++ walk true second := by
  induction first using walk.induct true with
  | case1 =>
      have hnothing : walk true [] = [] := by rw [walk]
      rw [hnothing, List.nil_append, List.nil_append]
  | case2 found rest ih =>
      simp only [dite_true] at ih
      rw [List.append_assoc] at ih
      rw [List.cons_append, walk_true_cons, walk_true_cons, ih, List.cons_append]

/-- If the walk from each entry lists what is below the entry, the walk over all of them lists what is
below their directory. -/
theorem walk_true_entries {entries : Entries Node}
    (h : ∀ entry ∈ entries, walk true (ofPlace (names ++ [entry.1]) entry.2).children =
      entry.2.preorder.map fun place => ofPlace (names ++ [entry.1] ++ place.1) place.2) :
    walk true (entries.map fun entry => ofPlace (names ++ [entry.1]) entry.2) =
      (Node.preorderEntries entries).map fun place => ofPlace (names ++ place.1) place.2 := by
  induction entries with
  | nil =>
      rw [List.map_nil, walk]
      rfl
  | cons entry rest ih =>
      rw [List.forall_mem_cons] at h
      obtain ⟨hentry, hrest⟩ := h
      rw [List.map_cons, walk_true_cons, walk_true_append, hentry, ih hrest, Node.preorderEntries_cons]
      simp [Function.comp_def]

theorem walk_true_children (h : ∀ name ∈ names, Path.IsName name) {node : Node}
    (hnode : node.Named Path.IsName) :
    walk true (ofPlace names node).children =
      node.preorder.map fun place => ofPlace (names ++ place.1) place.2 := by
  induction hnode generalizing names with
  | file content =>
      change walk true [] = []
      rw [walk]
  | directory entries once known inside ih =>
      have hentries : (ofPlace names (.directory entries)).children =
          entries.map fun entry => ofPlace (names ++ [entry.1]) entry.2 := by
        rw [children_ofPlace h]
        exact List.map_map
      rw [hentries, Node.preorder_directory]
      refine walk_true_entries ?_
      intro entry hentry
      have hname : Path.IsName entry.1 := known _ (Entries.mem_names_of_mem hentry)
      have hnames : ∀ name ∈ names ++ [entry.1], Path.IsName name := by
        intro name hmem
        rcases List.mem_append.mp hmem with hold | hnew
        · exact h name hold
        · exact List.mem_singleton.mp hnew ▸ hname
      exact ih entry hentry hnames

def below (start : String) (place : List String × Node) : Found :=
  ofPlace (Path.segments start ++ place.1) place.2

end Found

namespace Node

def places (deep : Bool) (node : Node) : List (List String × Node) :=
  if deep then node.preorder else node.firstLevel

theorem places_subset (deep : Bool) (node : Node) : node.places deep ⊆ node.preorder := by
  cases deep with
  | false => exact (firstLevel_sublist node).subset
  | true => exact List.Subset.refl _

/-- What is found below a path is found under the names of the path and those that lead on from it. -/
theorem descendants_canonical {start : String} {node : Node} (hnode : node.Named Path.IsName)
    (deep : Bool) :
    node.descendants (Path.canonical start) deep = (node.places deep).map (Found.below start) := by
  have hnames : ∀ name ∈ Path.segments start, Path.IsName name := fun _ => Path.isName_of_mem_segments
  have hstart : (⟨Path.canonical start, Path.base (Path.canonical start), node⟩ : Found) =
      .ofPlace (Path.segments start) node := by
    unfold Found.ofPlace Path.canonical
    rw [Path.base_ofSegments hnames]
  unfold descendants
  rw [hstart]
  cases deep with
  | false =>
      rw [Found.walk_false, Found.children_ofPlace hnames]
      rfl
  | true =>
      rw [Found.walk_true_children hnames hnode]
      rfl

end Node

end VirtualShell
