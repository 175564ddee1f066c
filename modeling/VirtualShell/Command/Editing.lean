import VirtualShell.Command.Flags
import VirtualShell.State.Action

/-! # Changing files

The commands that create, remove, copy and move files and directories.
-/

namespace VirtualShell.Command

def arguments (command : String) (allowed : List Char) (given : List String) : Action Arguments :=
  match parseFlags command allowed given with
  | .ok arguments => return arguments
  | .error e => throw e

/-- Applies an edit to each operand in turn, up to the first that fails. -/
def editEach (command missing : String) (change : (directory operand : String) → Edit Unit)
    (operands : List String) : Action (List Line) := do
  if operands.isEmpty then Action.misuse missing
  let directory ← Action.directory
  operands.forM fun operand => Action.edit command operand (change directory operand)
  return []

def touchFile (directory file : String) : Edit Unit := do
  if (← get).root.exists? (Path.resolve directory file) then return
  Edit.createFile directory file ""

def touch : List String → Action (List Line) :=
  editEach "touch" "touch: missing file operand" touchFile

def mkdir : List String → Action (List Line) :=
  editEach "mkdir" "mkdir: missing operand" Edit.createDirectory

def rm : List String → Action (List Line) := editEach "rm" "rm: missing operand" Edit.deleteFile

def rmdir : List String → Action (List Line) :=
  editEach "rmdir" "rmdir: missing operand" Edit.deleteDirectory

/-- The source and the destination of a command with exactly these operands. -/
def sourceAndTarget (command synopsis : String) : List String → Action (String × String)
  | [] => Action.misuse (command ++ ": missing file operand")
  | [only] => Action.misuse (command ++ ": missing destination file operand after '" ++ only ++ "'")
  | [source, target] => return (source, target)
  | _ => Action.misuse (command ++ ": extra operand; usage: " ++ synopsis)

/-- Copies a file, or a directory if that is asked for. -/
def cp (given : List String) : Action (List Line) := do
  let arguments ← arguments "cp" ['r', 'R'] given
  let (source, target) ← sourceAndTarget "cp" "cp [-r] SOURCE DEST" arguments.operands
  let directory ← Action.directory
  let root ← Action.root
  let node ← Action.expect "cp" source (root.at? (Path.resolve directory source))
  if node.isDirectory then
    if !(arguments.has 'r' || arguments.has 'R') then
      Action.misuse ("cp: -r not specified; omitting directory '" ++ source ++ "'")
    Action.edit "cp" target (Edit.copyDirectory directory source target)
  else Action.edit "cp" target (Edit.copyFile directory source target)
  return []

/-- An operand that names an entry of the working directory itself. -/
def isPlainName (operand : String) : Bool := !operand.toList.contains '/' && operand != ".."

/-- Renames an entry of the working directory in place, or moves a node to another place. -/
def mv (given : List String) : Action (List Line) := do
  let (source, target) ← sourceAndTarget "mv" "mv SOURCE DEST" given
  let directory ← Action.directory
  let root ← Action.root
  let inPlace := isPlainName source && isPlainName target &&
    !root.exists? (Path.resolve directory target)
  Action.edit "mv" source (if inPlace then Edit.rename directory source target
    else Edit.move directory source target)
  return []

end VirtualShell.Command
