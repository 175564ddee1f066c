import VirtualShell.Proofs.Files.Edits
import VirtualShell.Proofs.Tree.Shape

/-! # The paths of nodes

A tree is well-formed if its root is a directory and every directory lists names that a path can hold,
each of them once.  In such a tree the absolute path of a node leads to that node.
-/

namespace VirtualShell.Node

/-- A directory in which every entry, at any depth, has a name of its own that a path can hold. -/
structure WellFormed (root : Node) : Prop where
  directory : root.isDirectory
  named : root.Named Path.IsName

/-- A node stands in a tree below the listed names, whether or not it can be found there. -/
inductive Occurs : List String → Node → Node → Prop
  | here (root : Node) : Occurs [] root root
  | entry {name : String} {names : List String} {entries : Entries Node} {child node : Node}
      (listed : (name, child) ∈ entries) (inside : Occurs names node child) :
      Occurs (name :: names) node (directory entries)

variable {allowed : String → Prop} {names : List String} {node root : Node}

theorem occurs_of_lookup (h : root.lookup names = some node) : Occurs names node root := by
  induction names generalizing root with
  | nil =>
      cases h
      exact .here _
  | cons name names ih =>
      cases root with
      | file content => simp at h
      | directory entries =>
          rw [lookup_cons_directory] at h
          obtain ⟨child, hchild, hnode⟩ := Option.bind_eq_some_iff.mp h
          exact .entry (Entries.mem_of_get? hchild) (ih hnode)

namespace Occurs

theorem allowed_of_mem (h : Occurs names node root) (hroot : root.Named allowed) :
    ∀ name ∈ names, allowed name := by
  induction h with
  | here root => simp
  | entry listed inside ih =>
      obtain ⟨_, known, below⟩ := Named.directory_iff.mp hroot
      have hhead := known _ (Entries.mem_names_of_mem listed)
      exact List.forall_mem_cons.mpr ⟨hhead, ih (below _ listed)⟩

/-- Where no name is listed twice, no entry hides another one. -/
theorem lookup_eq (h : Occurs names node root) (hroot : root.Named allowed) :
    root.lookup names = some node := by
  induction h with
  | here root => rfl
  | entry listed inside ih =>
      obtain ⟨once, _, below⟩ := Named.directory_iff.mp hroot
      rw [lookup_cons_directory, Entries.get?_of_mem once listed, Option.bind_some]
      exact ih (below _ listed)

end Occurs

/-- The nodes of a tree are the ones that are found under their absolute paths. -/
theorem occurs_iff_at? (hroot : root.Named Path.IsName) :
    Occurs names node root ↔
      (∀ name ∈ names, Path.IsName name) ∧ root.at? (Path.ofSegments names) = .ok node := by
  constructor
  · intro h
    have hnames := h.allowed_of_mem hroot
    exact ⟨hnames, (at?_ofSegments_eq_ok_iff hnames).mpr (h.lookup_eq hroot)⟩
  · rintro ⟨hnames, hat⟩
    exact occurs_of_lookup ((at?_ofSegments_eq_ok_iff hnames).mp hat)

end VirtualShell.Node
