import VirtualShell.Files.Lookup
import VirtualShell.Output

/-! # Shell errors

Why a command fails, the message, and the lines that are printed for it.
-/

namespace VirtualShell

inductive ShellError
  /-- An operation on the tree was refused while a command worked on an operand. -/
  | files (command operand : String) (cause : FileError)
  /-- The command was called in a wrong way; the message is printed as it is. -/
  | usage (message : String)
  /-- The expansion of an alias leads back to the alias. -/
  | aliasCycle (name : String)
  | other (message : String)
deriving DecidableEq, Repr

namespace ShellError

def message : ShellError → String
  | files command operand cause => command ++ ": " ++ operand ++ ": " ++ cause.reason
  | usage message => message
  | aliasCycle name => "alias: " ++ name ++ ": alias expansion loops back on itself"
  | other message => message

/-- What can be named in a directory, or nothing when it cannot be listed. -/
def available (root : Node) (directory : String) : Option String :=
  match root.list directory with
  | .error _ => none
  | .ok [] => some "Available items: (none)"
  | .ok entries => some ("Available items: " ++ ", ".intercalate (entries.map fun (name, kind) =>
      match kind with
      | .directory => name ++ "/"
      | .file => name))

/-- The lines for an error, in a tree and a working directory.  Where it helps, a hint follows. -/
def report (root : Node) (directory : String) (e : ShellError) : List Line :=
  match e with
  | files _ _ (.noSuchEntry _) =>
    .error ("bash: " ++ e.message) :: ((available root directory).map Line.hint).toList
  | files _ operand (.notADirectory _) =>
    [.error ("bash: " ++ e.message), .hint ("Try: cat " ++ operand)]
  | files command operand (.permissionDenied _) =>
    [.error ("bash: " ++ e.message), .hint ("Try: sudo " ++ command ++ " " ++ operand)]
  | files _ _ _ => [.error ("Error: " ++ e.message)]
  | usage message => [.error message]
  | aliasCycle _ => [.error ("bash: " ++ e.message)]
  | other message => [.error ("Error: " ++ message)]

end ShellError

end VirtualShell
