import VirtualShell.Command.Editing
import VirtualShell.Search.Find

/-! # Searching

The commands that find entries by name and lines by pattern.
-/

namespace VirtualShell.Command

/-- The path and the pattern among the arguments of a search by name. -/
def findOperands (given : List String) : Action (String × String) :=
  match given.filter (· ≠ "-name") with
  | [] => Action.misuse "find: missing pattern; usage: find [PATH] PATTERN"
  | [pattern] => return (".", pattern)
  | [path, pattern] => return (path, pattern)
  | _ => Action.misuse "find: too many arguments; usage: find [PATH] PATTERN"

/-- Prints the paths of the entries below a path whose names fit a pattern. -/
def find (given : List String) : Action (List Line) := do
  let (path, pattern) ← findOperands given
  let root ← Action.root
  let found ← Action.expect "find" path (root.findFrom (← Action.directory) path pattern)
  return found.map fun entry => Line.ofKind entry.path entry.node.kind

/-- The pattern and the path among the operands of a search for lines. -/
def grepOperands : List String → Action (String × String)
  | [] => Action.misuse "grep: missing pattern; usage: grep [-r] [-i] PATTERN [PATH]"
  | [pattern] => return (pattern, ".")
  | [pattern, path] => return (pattern, path)
  | _ => Action.misuse "grep: too many arguments; usage: grep [-r] [-i] PATTERN [PATH]"

def numbered (found : LineMatch) : String := toString found.number ++ ": " ++ found.text

/-- Prints the lines that hold a match, in a file or in the files below a directory. -/
def grep (given : List String) : Action (List Line) := do
  let arguments ← arguments "grep" ['r', 'i'] given
  let (pattern, path) ← grepOperands arguments.operands
  let caseSensitive := !arguments.has 'i'
  match linePattern pattern caseSensitive with
  | .error e => Action.misuse ("grep: " ++ e.message)
  | .ok _ =>
    let root ← Action.root
    let directory ← Action.directory
    let target := Path.resolve directory path
    match ← Action.expect "grep" path (root.at? target) with
    | .file _ =>
      match root.searchFile directory path pattern caseSensitive with
      | none => Action.misuse ("grep: " ++ path ++ ": No such file")
      | some found => return found.map fun line => .output (numbered line)
    | .directory _ =>
      let files ← Action.expect "grep" path
        (root.searchBelow target pattern (arguments.has 'r') caseSensitive)
      return files.flatMap fun file =>
        file.lines.map fun line => .output (file.file ++ ":" ++ numbered line)

end VirtualShell.Command
