import VirtualShell.Files.Volume

/-! # Changing the tree

The eight edits of a volume.  Each checks all of its conditions first, then changes the tree and asks
for one save.
-/

namespace VirtualShell.Edit

/-- Adds a new node at the end of its directory. -/
def create (current name : String) (node : Node) : Edit Unit := do
  let path := Path.resolve current name
  if (Path.segments path).isEmpty then throw (.alreadyExists "/")
  let entries ← ask (·.entriesAt (Path.parent path))
  if (entries.get? (Path.base path)).isSome then throw (.alreadyExists path)
  setEntries (Path.parent path) (entries.put (Path.base path) node)
  save

def createFile (current name content : String) : Edit Unit := create current name (.file content)

/-- Adds a new directory without entries. -/
def createDirectory (current name : String) : Edit Unit := create current name .empty

def deleteFile (current name : String) : Edit Unit := do
  let path := Path.resolve current name
  if (Path.segments path).isEmpty then throw (.permissionDenied path)
  let entries ← ask (·.entriesAt (Path.parent path))
  match entries.get? (Path.base path) with
  | none => throw (.noSuchEntry path)
  | some (.directory _) => throw (.isADirectory path)
  | some (.file _) =>
    setEntries (Path.parent path) (entries.erase (Path.base path))
    save

/-- Removes a directory that has no entries. -/
def deleteDirectory (current name : String) : Edit Unit := do
  let path := Path.resolve current name
  if (Path.segments path).isEmpty then throw (.permissionDenied path)
  let entries ← ask (·.entriesAt (Path.parent path))
  match entries.get? (Path.base path) with
  | none => throw (.noSuchEntry path)
  | some (.file _) => throw (.notADirectory path)
  | some (.directory (_ :: _)) => throw (.directoryNotEmpty path)
  | some (.directory []) =>
    setEntries (Path.parent path) (entries.erase (Path.base path))
    save

def copyFile (current source destination : String) : Edit Unit := do
  let path := Path.resolve current source
  let content ← ask (·.contentOf current source)
  let goal := Path.resolve current destination
  -- A directory receives the copy under the name of the source; any other goal is the path of the copy.
  let target ← ask fun root => match root.at? goal with
    | .ok (.directory _) => .ok (Path.child goal (Path.base path))
    | _ => .ok goal
  if (Path.segments target).isEmpty then throw (.isADirectory "/")
  let entries ← ask (·.entriesAt (Path.parent target))
  match entries.get? (Path.base target) with
  | some (.directory _) => throw (.isADirectory target)
  | _ =>
    setEntries (Path.parent target) (entries.put (Path.base target) (.file content))
    save

def copyDirectory (current source destination : String) : Edit Unit := do
  let path := Path.resolve current source
  let copy ← ask (·.at? path)
  if !copy.isDirectory then throw (.notADirectory path)
  let goal := Path.resolve current destination
  let target ← ask fun root => match root.at? goal with
    | .ok (.directory _) => .ok (Path.child goal (Path.base path))
    | .ok (.file _) => .error (.alreadyExists goal)
    | .error _ => .ok goal
  if (Path.segments target).isEmpty then throw (.alreadyExists "/")
  let entries ← ask (·.entriesAt (Path.parent target))
  if (entries.get? (Path.base target)).isSome then throw (.alreadyExists target)
  setEntries (Path.parent target) (entries.put (Path.base target) copy)
  save

/-- The directory and the name at which a move to `goal` puts the node called `name`. -/
def moveTarget (name goal : String) (root : Node) : String × String :=
  match root.at? goal with
  | .ok (.directory _) => (goal, name)
  | _ => (Path.parent goal, Path.base goal)

/-- A canonical path lies at or below another one. -/
def isAtOrBelow (path top : String) : Bool :=
  path = top || (top ++ "/").toList.isPrefixOf path.toList

/-- Takes a node out of its directory and puts it, whole, at another place.  A directory as
destination receives the node under its own name; any other destination is the new path. -/
def move (current source destination : String) : Edit Unit := do
  let path := Path.canonical (Path.resolve current source)
  if path = "/" then throw (.permissionDenied path)
  let _ ← ask (·.at? path)
  let goal := Path.canonical (Path.resolve current destination)
  let (directory, name) ← ask fun root => .ok (moveTarget (Path.base path) goal root)
  if isAtOrBelow directory path then throw (.invalidMove path goal)
  -- A node that stays where it is changes nothing, so nothing is saved.
  if directory = Path.parent path ∧ name = Path.base path then return
  let _ ← ask (·.entriesAt directory)
  let siblings ← ask (·.entriesAt (Path.parent path))
  match siblings.get? (Path.base path) with
  | none => throw (.noSuchEntry path)
  | some node =>
    setEntries (Path.parent path) (siblings.erase (Path.base path))
    -- The target is looked up again, without the node; what is there under the name gives way.
    let entries ← ask (·.entriesAt directory)
    setEntries directory (entries.put name node)
    save

/-- Gives an entry of the directory `current` a new name at the same place.  Both names are taken as
they are written. -/
def rename (current old new : String) : Edit Unit := do
  let entries ← ask (·.entriesAt current)
  if (entries.get? old).isNone then throw (.noSuchEntry (Path.child current old))
  if (entries.get? new).isSome then throw (.alreadyExists (Path.child current new))
  setEntries current (entries.rename old new)
  save

end VirtualShell.Edit
