import VirtualShell.Command.Drawing
import VirtualShell.Command.Editing
import VirtualShell.Command.Reading

/-! # Listing and moving about

The commands that show directories and change the working directory.
-/

namespace VirtualShell.Command

def entryLine (entry : String × Kind) : Line :=
  match entry.2 with
  | .directory => .directory (entry.1 ++ "/")
  | .file => .output entry.1

def ls (given : List String) : Action (List Line) := do
  let arguments ← arguments "ls" ['a'] given
  let targets := if arguments.operands.isEmpty then ["."] else arguments.operands
  let headings := decide (1 < targets.length)
  forEach targets.zipIdx fun (target, index) => do
    let root ← Action.root
    let path := Path.resolve (← Action.directory) target
    let entries ← Action.expect "ls" target (root.list path)
    let heading := if headings then
        (if 0 < index then [Line.output ""] else []) ++ [Line.info (target ++ ":")]
      else []
    let shown := entries.filter fun (name, _) => arguments.has 'a' || !isHidden name
    return heading ++ shown.map entryLine

def tree (given : List String) : Action (List Line) := do
  let arguments ← arguments "tree" ['a'] given
  let target := arguments.operands.headD "."
  let root ← Action.root
  let path := Path.resolve (← Action.directory) target
  let node ← Action.expect "tree" target (root.at? path)
  if !node.isDirectory then throw (.files "tree" target (.notADirectory path))
  let drawn := draw (arguments.has 'a') node
  return .directory target :: drawn.map Branch.line ++ [.output "", .info (totals drawn)]

def pwd (_ : List String) : Action (List Line) := return [.output (← Action.directory)]

/-- Where an operand of the change of directory leads, and whether the new directory is printed. -/
def directoryOperand (session : Session) (operand : String) : String × Bool :=
  match operand.toList with
  | ['~'] => (session.home, false)
  | '~' :: '/' :: rest => (Path.child session.home (String.ofList rest), false)
  | ['-'] => (session.previous, true)
  | _ => (operand, false)

def cd (given : List String) : Action (List Line) := do
  let operand := given.headD "~"
  let session ← Action.session
  let (target, print) := directoryOperand session operand
  let root ← Action.root
  let path ← Action.expect "cd" operand (root.changePath session.current target)
  Action.changeDirectory path
  return if print then [.output path] else []

end VirtualShell.Command
