import VirtualShell.Path
import VirtualShell.Tree.Node

/-! # Walking a tree

The nodes below a node, each before the nodes below it, in the order of the entries.  The walk keeps
the nodes still to visit in a list, so that a deep tree needs no deep recursion.
-/

namespace VirtualShell

structure Found where
  path : String
  name : String
  node : Node

namespace Found

def children (found : Found) : List Found :=
  match found.node with
  | .directory entries =>
    entries.map fun (name, node) => ⟨Path.child found.path name, name, node⟩
  | .file _ => []

/-- The number of nodes at and below those of a list. -/
def weight : List Found → Nat
  | [] => 0
  | found :: rest => found.node.size + weight rest

theorem weight_append (first second : List Found) :
    weight (first ++ second) = weight first + weight second := by
  induction first with
  | nil => simp [weight]
  | cons found rest ih => simp only [List.cons_append, weight, ih, Nat.add_assoc]

theorem weight_children (found : Found) : weight found.children + 1 = found.node.size := by
  obtain ⟨path, name, node⟩ := found
  cases node with
  | file content => rfl
  | directory entries =>
      simp only [children, Node.size, Nat.add_comm 1, Nat.add_right_cancel_iff]
      induction entries with
      | nil => rfl
      | cons entry rest ih =>
          obtain ⟨key, child⟩ := entry
          simp only [weight, List.map_cons, Node.sizeOfEntries] at ih ⊢
          rw [ih]

/-- Visits the pending nodes in order and, in a deep walk, everything below each of them next. -/
def walk (deep : Bool) : List Found → List Found
  | [] => []
  | found :: rest => found :: walk deep ((if deep then found.children else []) ++ rest)
termination_by pending => weight pending
decreasing_by
  have positive := Node.size_pos found.node
  have step := weight_children found
  rw [weight_append]
  split <;> simp only [weight] <;> omega

end Found

/-- Everything below a node, or only its entries, with paths that begin with the path of the node. -/
def Node.descendants (node : Node) (path : String) (deep : Bool) : List Found :=
  Found.walk deep (Found.children ⟨path, Path.base path, node⟩)

end VirtualShell
