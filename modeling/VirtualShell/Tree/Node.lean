import VirtualShell.Tree.Entries

/-! # Trees of files and directories

A node is a file with its content or a directory with its entries.  A node below another is addressed
by the names on the way to it.
-/

namespace VirtualShell

/-- A file, or a directory with named nodes in order. -/
inductive Node
  | file (content : String)
  | directory (entries : List (String × Node))
deriving Inhabited

inductive Kind
  | file
  | directory
deriving DecidableEq, Repr

/-- The word for a kind, in listings and in the saved form of a tree. -/
def Kind.word : Kind → String
  | .file => "file"
  | .directory => "directory"

namespace Node

mutual
def decideEq : (a b : Node) → Decidable (a = b)
  | file a, file b =>
    if h : a = b then isTrue (by rw [h]) else isFalse (by simpa using h)
  | directory a, directory b =>
    match decideEqEntries a b with
    | isTrue h => isTrue (by rw [h])
    | isFalse h => isFalse (by simpa using h)
  | file _, directory _ => isFalse (by simp)
  | directory _, file _ => isFalse (by simp)

def decideEqEntries : (a b : List (String × Node)) → Decidable (a = b)
  | [], [] => isTrue rfl
  | (n, a) :: as, (m, b) :: bs =>
    if hn : n = m then
      match decideEq a b with
      | isTrue ha =>
        match decideEqEntries as bs with
        | isTrue has => isTrue (by rw [hn, ha, has])
        | isFalse has => isFalse (by simp [has])
      | isFalse ha => isFalse (by simp [ha])
    else isFalse (by simp [hn])
  | [], _ :: _ => isFalse (by simp)
  | _ :: _, [] => isFalse (by simp)
end

instance : DecidableEq Node := decideEq

def empty : Node := directory []

def kind : Node → Kind
  | file _ => .file
  | directory _ => .directory

def isDirectory : Node → Bool
  | file _ => false
  | directory _ => true

/-- The entries of a directory; a file has none. -/
def entries? : Node → Option (Entries Node)
  | file _ => none
  | directory entries => some entries

/-- The node reached by following the names from this node. -/
def lookup : List String → Node → Option Node
  | [], node => some node
  | name :: names, node => (node.entries?.bind (·.get? name)).bind (lookup names)

/-- The tree with the entries of the directory at the given place replaced.  A place that is no
directory leaves the tree as it is. -/
def withEntries (new : Entries Node) : List String → Node → Node
  | _, file content => file content
  | [], directory _ => directory new
  | name :: names, directory entries =>
    match Entries.get? name entries with
    | some node => directory (Entries.put name (withEntries new names node) entries)
    | none => directory entries

mutual
def size : Node → Nat
  | file _ => 1
  | directory entries => 1 + sizeOfEntries entries

/-- The number of nodes in entries and below them. -/
def sizeOfEntries : List (String × Node) → Nat
  | [] => 0
  | (_, node) :: rest => size node + sizeOfEntries rest
end

theorem size_pos (node : Node) : 0 < node.size := by
  cases node <;> simp only [size] <;> omega

theorem lookup_nil (node : Node) : lookup [] node = some node := rfl

/-- Following two lists of names is following one after the other. -/
theorem lookup_append (before after : List String) (node : Node) :
    lookup (before ++ after) node = (lookup before node).bind (lookup after) := by
  induction before generalizing node with
  | nil => rfl
  | cons name names ih =>
      simp only [List.cons_append, lookup]
      cases node.entries?.bind (·.get? name) with
      | none => rfl
      | some next => exact ih next

/-- The tree that is used when nothing usable has been saved. -/
def seed : Node :=
  .directory [
    ("home", .directory [
      ("user", .directory [
        ("README.md", .file "# Welcome to webterm\n\nA small Unix-like shell with a virtual filesystem.\n\nTry:\n  ls, cat documents/notes.txt, cd documents\n  find / *.md\n  grep -r todo .\n  ls | grep .txt\n  help\n"),
        ("documents", .directory [
          ("notes.txt", .file "Meeting notes\n- ship the terminal\n- write more tests\n- todo: review the grep command\n"),
          ("todo.txt", .file "[ ] buy coffee\n[x] set up the shell\n[ ] learn the find command\n")]),
        ("projects", .directory [
          ("hello", .directory [
            ("main.rs", .file "fn main() \x7b\n    println!(\"Hello, world!\");\n\x7d\n"),
            ("README.md", .file "# hello\n\nPrints a greeting.\n")])]),
        (".profile", .file "alias ll='ls -a'\n")])]),
    ("etc", .directory [
      ("motd", .file "Welcome! Type 'help' to see what this shell can do.\n"),
      ("hostname", .file "webterm\n")]),
    ("tmp", .empty),
    ("var", .directory [
      ("log", .directory [
        ("system.log", .file "[boot] filesystem mounted\n[boot] shell ready\n")])])]

end Node

end VirtualShell
