import VirtualShell.Output

/-! # Drawing trees

The lines of a drawn tree.  The drawing keeps the branches still to draw in a list, so that a deep
tree needs no deep recursion.
-/

namespace VirtualShell.Command

/-- A name that begins with a dot is not shown unless it is asked for. -/
def isHidden (name : String) : Bool := name.toList.head? = some '.'

/-- A node that is to be drawn behind an indentation. -/
structure Branch where
  indent : String
  name : String
  node : Node
  /-- No sibling follows. -/
  last : Bool

namespace Branch

def ofEntries (indent : String) : List (String × Node) → List Branch
  | [] => []
  | [(name, node)] => [⟨indent, name, node, true⟩]
  | (name, node) :: rest => ⟨indent, name, node, false⟩ :: ofEntries indent rest

def shown (all : Bool) (node : Node) : List (String × Node) :=
  (node.entries?.getD []).filter fun (name, _) => all || !isHidden name

def nextIndent (branch : Branch) : String := branch.indent ++ (if branch.last then "    " else "│   ")

def children (all : Bool) (branch : Branch) : List Branch :=
  ofEntries branch.nextIndent (shown all branch.node)

def line (branch : Branch) : Line :=
  let text := branch.indent ++ (if branch.last then "└── " else "├── ") ++ branch.name
  if branch.node.isDirectory then .directory (text ++ "/") else .output text

/-- The number of nodes at and below those of a list. -/
def weight : List Branch → Nat
  | [] => 0
  | branch :: rest => branch.node.size + weight rest

theorem weight_append (first second : List Branch) :
    weight (first ++ second) = weight first + weight second := by
  induction first with
  | nil => simp [weight]
  | cons branch rest ih => simp only [List.cons_append, weight, ih, Nat.add_assoc]

theorem weight_ofEntries (indent : String) (entries : List (String × Node)) :
    weight (ofEntries indent entries) = Node.sizeOfEntries entries := by
  fun_induction ofEntries indent entries with
  | case1 => rfl
  | case2 name node => simp [weight, Node.sizeOfEntries]
  | case3 name node rest _ ih => simp [weight, Node.sizeOfEntries] at ih ⊢; exact ih

theorem sizeOfEntries_filter_le (keep : String × Node → Bool) (entries : List (String × Node)) :
    Node.sizeOfEntries (entries.filter keep) ≤ Node.sizeOfEntries entries := by
  induction entries with
  | nil => simp
  | cons entry rest ih =>
      obtain ⟨name, node⟩ := entry
      rw [List.filter_cons]
      split <;> simp only [Node.sizeOfEntries] <;> omega

theorem weight_children_lt (all : Bool) (branch : Branch) :
    weight (children all branch) < branch.node.size := by
  rw [children, weight_ofEntries, shown]
  refine Nat.lt_of_le_of_lt (sizeOfEntries_filter_le _ _) ?_
  cases branch.node with
  | file content => simp [Node.entries?, Node.sizeOfEntries, Node.size]
  | directory entries => simp [Node.entries?, Node.size]

/-- Draws the pending branches in order, and what grows from each of them next. -/
def grow (all : Bool) : List Branch → List Branch
  | [] => []
  | branch :: rest => branch :: grow all (children all branch ++ rest)
termination_by pending => weight pending
decreasing_by
  have smaller := weight_children_lt all branch
  have head : weight (branch :: rest) = branch.node.size + weight rest := by simp [weight]
  rw [weight_append, head]
  omega

end Branch

/-- The branches below a node in the order in which they are drawn. -/
def draw (all : Bool) (node : Node) : List Branch :=
  Branch.grow all (Branch.ofEntries "" (Branch.shown all node))

def totals (drawn : List Branch) : String :=
  let directories := (drawn.filter (·.node.isDirectory)).length
  let files := (drawn.filter (!·.node.isDirectory)).length
  toString directories ++ (if directories = 1 then " directory, " else " directories, ") ++
    toString files ++ (if files = 1 then " file" else " files")

end VirtualShell.Command
