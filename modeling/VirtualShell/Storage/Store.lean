import VirtualShell.Storage.Disk
import VirtualShell.Tree.Entries

/-! # Stores

A store keeps texts under keys, either in memory or as files in a directory of a disk.
-/

namespace VirtualShell

/-- A request to store a text under a key. -/
structure Save where
  key : String
  text : String
deriving DecidableEq, Repr

inductive StorageError
  | io (key cause : String)
deriving DecidableEq, Repr

def StorageError.message : StorageError → String
  | io key cause => "storage I/O error for '" ++ key ++ "': " ++ cause

structure MemoryStore where
  entries : Entries String
  badReads : List String
  badWrites : List String

/-- A store with one file for each key in a directory. -/
structure DirectoryStore where
  disk : Disk
  directory : String

inductive Store
  | memory (store : MemoryStore)
  | directory (store : DirectoryStore)

namespace MemoryStore

def empty : MemoryStore := ⟨[], [], []⟩

def get (store : MemoryStore) (key : String) : Except StorageError (Option String) :=
  if store.badReads.contains key then .error (.io key "read failed") else .ok (store.entries.get? key)

def put (store : MemoryStore) (key text : String) : Except StorageError MemoryStore :=
  if store.badWrites.contains key then .error (.io key "write failed")
  else .ok { store with entries := store.entries.put key text }

end MemoryStore

namespace DirectoryStore

/-- The store in a directory, which is created if it is missing. -/
def openAt (disk : Disk) (directory : String) : Except StorageError DirectoryStore :=
  match disk.ensureDirectories directory with
  | .ok disk => .ok ⟨disk, directory⟩
  | .error e => .error (.io directory e.message)

def path (store : DirectoryStore) (key : String) : String :=
  let name := key ++ ".json"
  if name.toList.head? = some '/' ∨ store.directory = "" then name
  else if store.directory.toList.getLast? = some '/' then store.directory ++ name
  else store.directory ++ "/" ++ name

def get (store : DirectoryStore) (key : String) : Except StorageError (Option String) :=
  match store.disk.readText (store.path key) with
  | .ok text => .ok (some text)
  | .error .notFound => .ok none
  | .error e => .error (.io key e.message)

def put (store : DirectoryStore) (key text : String) : Except StorageError DirectoryStore :=
  match store.disk.writeText (store.path key) text with
  | .ok disk => .ok { store with disk }
  | .error e => .error (.io key e.message)

end DirectoryStore

namespace Store

def get (store : Store) (key : String) : Except StorageError (Option String) :=
  match store with
  | memory store => store.get key
  | directory store => store.get key

def put (store : Store) (key text : String) : Except StorageError Store :=
  match store with
  | memory store => (store.put key text).map .memory
  | directory store => (store.put key text).map .directory

/-- The text under a key, where a failing read counts as nothing stored. -/
def read? (store : Store) (key : String) : Option String :=
  match store.get key with
  | .ok text => text
  | .error _ => none

/-- Attempts a save; a failing write leaves the store as it is. -/
def carryOut (store : Store) (save : Save) : Store :=
  match store.put save.key save.text with
  | .ok store => store
  | .error _ => store

def carryOutAll (store : Store) (saves : List Save) : Store := saves.foldl carryOut store

end Store

end VirtualShell
