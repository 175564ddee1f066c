import VirtualShell.Files.Lookup
import VirtualShell.Storage.Store
import VirtualShell.Tree.Blob

/-! # Volumes

The tree together with the store that it is saved in.  A save is written to the store when an edit asks for
it, and the edit goes on in the same way whether the write succeeds or fails.
-/

namespace VirtualShell

namespace Save

def filesKey : String := "webterm.filesystem"

def aliasesKey : String := "webterm.aliases"

def historyKey : String := "webterm.history"

def files (root : Node) : Save := ⟨filesKey, root.blob⟩

end Save

/-- A tree and the store in which it is saved. -/
structure Mount where
  root : Node
  store : Store

/-- A tree by itself stands over an empty store. -/
instance : Coe Node Mount := ⟨fun root => ⟨root, .memory .empty⟩⟩

/-- A mounted tree with the saves attempted so far, the oldest first. -/
structure Volume extends Mount where
  journal : List Save

/-- Attempts a save.  The journal does not tell whether it failed. -/
def Volume.attempt (save : Save) (volume : Volume) : Volume :=
  { volume with store := volume.store.carryOut save, journal := volume.journal ++ [save] }

/-- A change of a volume under way.  A failure keeps what was done before it. -/
abbrev Edit := EStateM FileError Volume

namespace Edit

/-- Asks a question about the tree; an error of the answer fails the edit. -/
def ask {α : Type} (question : Node → Except FileError α) : Edit α := fun volume =>
  match question volume.root with
  | .ok answer => .ok answer volume
  | .error e => .error e volume

/-- Replaces the entries of the directory at a path. -/
def setEntries (path : String) (entries : Entries Node) : Edit Unit :=
  modify fun volume => { volume with root := volume.root.withEntries entries (Path.segments path) }

def save : Edit Unit := modify fun volume => volume.attempt (.files volume.root)

end Edit

end VirtualShell
