import VirtualShell.Path
import VirtualShell.Tree.Node

/-! # Looking at the tree

Questions about the node at a path, which never change the tree, and the causes for which an operation
on the tree is refused, each with a short reason and a full message.
-/

namespace VirtualShell

inductive FileError
  | noSuchEntry (path : String)
  | notADirectory (path : String)
  | isADirectory (path : String)
  | alreadyExists (path : String)
  | directoryNotEmpty (path : String)
  | permissionDenied (path : String)
  | invalidMove (source target : String)
  | invalidPattern (pattern reason : String)
deriving DecidableEq, Repr

namespace FileError

def reason : FileError → String
  | noSuchEntry _ => "No such file or directory"
  | notADirectory _ => "Not a directory"
  | isADirectory _ => "Is a directory"
  | alreadyExists _ => "File exists"
  | directoryNotEmpty _ => "Directory not empty"
  | permissionDenied _ => "Permission denied"
  | invalidMove _ _ => "Cannot move a directory into itself"
  | invalidPattern _ _ => "Invalid pattern"

def message : FileError → String
  | noSuchEntry path => "No such file or directory: " ++ path
  | notADirectory path => "Not a directory: " ++ path
  | isADirectory path => "Is a directory: " ++ path
  | alreadyExists path => "File exists: " ++ path
  | directoryNotEmpty path => "Directory not empty: " ++ path
  | permissionDenied path => "Permission denied: " ++ path
  | invalidMove source target =>
    "Cannot move '" ++ source ++ "' to a subdirectory of itself, '" ++ target ++ "'"
  | invalidPattern pattern reason => "Invalid pattern '" ++ pattern ++ "': " ++ reason

end FileError

namespace Node

def at? (root : Node) (path : String) : Except FileError Node :=
  match root.lookup (Path.segments path) with
  | some node => .ok node
  | none => .error (.noSuchEntry path)

def exists? (root : Node) (path : String) : Bool := (root.lookup (Path.segments path)).isSome

def entriesAt (root : Node) (path : String) : Except FileError (Entries Node) :=
  match root.at? path with
  | .ok (.directory entries) => .ok entries
  | .ok (.file _) => .error (.notADirectory path)
  | .error e => .error e

/-- The names in the directory at a path, each with its kind, in order. -/
def list (root : Node) (path : String) : Except FileError (List (String × Kind)) :=
  (root.entriesAt path).map (·.map fun (name, node) => (name, node.kind))

/-- The canonical path of the directory to which `target` leads from `current`. -/
def changePath (root : Node) (current target : String) : Except FileError String :=
  let path := Path.resolve current target
  (root.entriesAt path).map fun _ => Path.canonical path

def contentOf (root : Node) (current name : String) : Except FileError String :=
  let path := Path.resolve current name
  match root.at? path with
  | .ok (.file content) => .ok content
  | .ok (.directory _) => .error (.isADirectory path)
  | .error e => .error e

end Node

end VirtualShell
