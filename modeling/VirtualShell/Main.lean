import Std.Time.DateTime.Timestamp
import VirtualShell.CommandLine.Run

/-! # The command line

Takes what a run of the program needs from the real disk, the clock and the standard input, and puts
back what the run leaves.
-/

namespace VirtualShell.Console

/-- The place that a path names when nothing stands in the way. -/
def placeOf (path : String) : Place := (Disk.steps path).foldl Disk.enter (Disk.origin path)

def pathOf : Place → String
  | "/" :: names => "/" ++ "/".intercalate names
  | names => "/".intercalate names

/-- What stands at a path of the real disk. -/
def probe (path : String) : IO (Option DiskEntry) := do
  try
    return some (.file (← IO.FS.readBinFile path))
  catch
    | .noFileOrDirectory .. => return none
    | .inappropriateType _ 21 _ => return some .directory
    | .inappropriateType .. => return none
    | e => throw e

/-- The disk with what the real disk holds at paths and on the way to them. -/
def look (disk : Disk) (paths : List String) : IO Disk :=
  (paths.flatMap Disk.leadingPaths).foldlM (fun disk path => do
    match ← probe path with
    | some entry => return disk.put (placeOf path) entry
    | none => return disk) disk

def knownDisk (home : Option String) (invocation : Invocation) : IO Disk := do
  let disk ← look ⟨[]⟩ invocation.config.toList
  look disk (CommandLine.filesTouched disk home invocation)

/-- An entry stands at a place of a disk already. -/
def isKnown (disk : Disk) (place : Place) (entry : DiskEntry) : Bool :=
  match disk.at? place, entry with
  | some (.file old), .file new => old == new
  | some .directory, .directory => true
  | _, _ => false

/-- Puts what is new or changed on the real disk. -/
def store (before after : Disk) : IO Unit :=
  after.entries.forM fun (place, entry) => do
    if !isKnown before place entry then
      match entry with
      | .file bytes => IO.FS.writeBinFile (pathOf place) bytes
      | .directory => IO.FS.createDirAll (pathOf place)

def now : IO Moment := do
  let nanoseconds := (← Std.Time.Timestamp.now).toNanosecondsSinceUnixEpoch.val.toNat
  return ⟨nanoseconds / 1000000000, nanoseconds % 1000000000⟩

partial def readAll (input : IO.FS.Stream) (done : ByteArray) : IO ByteArray := do
  let bytes ← input.read 65536
  if bytes.isEmpty then return done else readAll input (done ++ bytes)

def write (output error : String) : IO Unit := do
  IO.print output
  (← IO.getStdout).flush
  IO.eprint error

/-- Asks for lines and runs them until the input ends or a line says farewell. -/
partial def converse (json : Bool) (disk : Disk) (input : IO.FS.Stream) (shell : Shell) : IO Unit := do
  write (shell.state.session.prompt ++ " ") ""
  let line ← input.getLine
  if line.isEmpty || CommandLine.isFarewell line then IO.println ""
  else
    let (result, shell) := { shell with state := { shell.state with now := ← now } }.exec line
    write (CommandLine.resultOutput json result) (CommandLine.resultError json result)
    let after := CommandLine.diskAfter disk shell
    store disk after
    converse json after input shell

def finish (before : Disk) (outcome : Outcome) : IO UInt32 := do
  store before outcome.disk
  write outcome.output outcome.error
  return UInt32.ofNat outcome.exitCode

def run (arguments : List String) (invocation : Invocation) : IO UInt32 := do
  let input ← IO.getStdin
  let home ← IO.getEnv "HOME"
  let disk ← knownDisk home invocation
  if CommandLine.readsInput invocation && (← input.isTty) then
    match CommandLine.openShell ⟨disk, home, [], ← now⟩ invocation with
    | .error message => finish disk (CommandLine.failure disk message)
    | .ok shell =>
      let after := CommandLine.diskAfter disk shell
      store disk after
      converse invocation.json after input shell
      return 0
  else
    let bytes ← if CommandLine.readsInput invocation then readAll input .empty else pure .empty
    finish disk (CommandLine.run ⟨disk, home, bytes.toList, ← now⟩ arguments)

end VirtualShell.Console

def main (arguments : List String) : IO UInt32 :=
  match VirtualShell.Demand.ofArguments arguments with
  | .run invocation => VirtualShell.Console.run arguments invocation
  | _ => VirtualShell.Console.finish ⟨[]⟩
      (VirtualShell.CommandLine.run ⟨⟨[]⟩, none, [], .epoch⟩ arguments)
