import VirtualShell.Text.Pieces

/-! # Disks

A disk holds directories and files under the names that lead to them.  Its operations fail with the
causes and the texts of an operating system.
-/

namespace VirtualShell

inductive DiskError
  | notFound
  | alreadyThere
  | notADirectory
  | isADirectory
  | nameTooLong
  /-- A name contains the character with code zero. -/
  | badName
  /-- The bytes of a file are no text. -/
  | notText
deriving DecidableEq, Repr

def DiskError.message : DiskError → String
  | notFound => "No such file or directory (os error 2)"
  | alreadyThere => "File exists (os error 17)"
  | notADirectory => "Not a directory (os error 20)"
  | isADirectory => "Is a directory (os error 21)"
  | nameTooLong => "File name too long (os error 36)"
  | badName => "file name contained an unexpected NUL byte"
  | notText => "stream did not contain valid UTF-8"

inductive DiskEntry
  | file (bytes : ByteArray)
  | directory

/-- A place on a disk: the names on the way from the directory in which the program runs.  A slash as
first name stands for the top of the disk, and two dots lead above the directory of the program. -/
abbrev Place := List String

/-- What is known of a disk, by place.  The directory of the program and those above it are always
there. -/
structure Disk where
  entries : List (Place × DiskEntry)

namespace Disk

def at? (disk : Disk) (place : Place) : Option DiskEntry :=
  if place.all fun name => name = ".." || name = "/" then some .directory
  else (disk.entries.find? (·.1 = place)).map (·.2)

def put (place : Place) (entry : DiskEntry) (disk : Disk) : Disk :=
  if disk.entries.any (·.1 = place) then
    ⟨disk.entries.map fun old => if old.1 = place then (place, entry) else old⟩
  else ⟨disk.entries ++ [(place, entry)]⟩

/-- The place one name further; a dot stays and two dots lead back. -/
def enter (place : Place) (name : String) : Place :=
  if name = "." then place
  else if name ≠ ".." then place ++ [name]
  else if place = ["/"] then place
  else if place.getLastD ".." = ".." then place ++ [".."]
  else place.dropLast

/-- The names in a path, dots among them. -/
def steps (path : String) : List String :=
  ((Text.pieces '/' path.toList).filter fun name => !name.isEmpty).map String.ofList

def origin (path : String) : Place := if path.toList.head? = some '/' then ["/"] else []

/-- A path that ends in a slash can only name a directory. -/
def asksForDirectory (path : String) : Bool := path.toList.getLast? = some '/'

/-- The place reached by names that are looked up one after the other, each in a directory; the last name
may lead anywhere. -/
def follow (disk : Disk) (place : Place) : List String → Except DiskError Place
  | [] => .ok place
  | name :: rest =>
    match disk.at? place with
    | none => .error .notFound
    | some (.file _) => .error .notADirectory
    | some .directory =>
      if 255 < name.utf8ByteSize then .error .nameTooLong
      else disk.follow (enter place name) rest

def locate (disk : Disk) (path : String) : Except DiskError Place :=
  if path.toList.contains '\x00' then .error .badName
  else if path.isEmpty then .error .notFound
  else if 4095 < path.utf8ByteSize then .error .nameTooLong
  else disk.follow (origin path) (steps path)

def readBytes (disk : Disk) (path : String) : Except DiskError ByteArray := do
  let place ← disk.locate path
  match disk.at? place with
  | none => .error .notFound
  | some .directory => .error .isADirectory
  | some (.file bytes) => if asksForDirectory path then .error .notADirectory else .ok bytes

def readText (disk : Disk) (path : String) : Except DiskError String := do
  match String.fromUTF8? (← disk.readBytes path) with
  | some text => .ok text
  | none => .error .notText

/-- Writes a file.  It is created if it is missing, since its directory is there when its place can be
found. -/
def writeText (disk : Disk) (path text : String) : Except DiskError Disk := do
  let place ← disk.locate path
  if asksForDirectory path then .error .isADirectory
  else match disk.at? place with
    | some .directory => .error .isADirectory
    | _ => .ok (disk.put place (.file text.toUTF8))

/-- Creates one directory in a directory that is there. -/
def makeDirectory (disk : Disk) (path : String) : Except DiskError Disk := do
  let place ← disk.locate path
  match disk.at? place with
  | some _ => .error .alreadyThere
  | none => .ok (disk.put place .directory)

/-- A path names a directory that is there. -/
def isDirectory (disk : Disk) (path : String) : Bool :=
  match disk.locate path with
  | .ok place => match disk.at? place with
    | some .directory => true
    | _ => false
  | .error _ => false

def ensureDirectory (disk : Disk) (path : String) : Except DiskError Disk :=
  match disk.makeDirectory path with
  | .ok disk => .ok disk
  | .error e => if disk.isDirectory path then .ok disk else .error e

/-- The path that begins like a path and goes on with the given names. -/
def withSteps (path : String) (names : List String) : String :=
  (if path.toList.head? = some '/' then "/" else "") ++ "/".intercalate names

/-- The paths to a path, each one name longer than the one before, from the first name on. -/
def leadingPaths (path : String) : List String :=
  let names := steps path
  (List.range names.length).map fun count => withSteps path (names.take (count + 1))

/-- The paths of the directories that hold what a path names, the outermost first.  Single dots do not
count as names. -/
def ancestors (path : String) : List String :=
  (leadingPaths (withSteps path ((steps path).filter (· ≠ ".")))).dropLast

/-- Creates a directory with the directories on the way to it.  Only when a directory on the way is
missing are those before it looked at. -/
def ensureDirectories (disk : Disk) (path : String) : Except DiskError Disk :=
  if path.isEmpty then .ok disk
  else match disk.ensureDirectory path with
    | .error .notFound => do
      let disk ← (ancestors path).foldlM ensureDirectory disk
      disk.ensureDirectory path
    | result => result

end Disk

end VirtualShell
