import VirtualShell.Tree.Node

/-! # Printed lines

What commands print: lines of text, each with a style that says how to present it.
-/

namespace VirtualShell

inductive Style
  | output
  | error
  | info
  | hint
  | directory
  | success
  /-- Clears the screen; such a line has no text. -/
  | clear
deriving DecidableEq, Repr

/-- The word for a style in the printed form of a result. -/
def Style.word : Style → String
  | .output => "output"
  | .error => "error"
  | .info => "info"
  | .hint => "hint"
  | .directory => "directory"
  | .success => "success"
  | .clear => "clear"

structure Line where
  text : String
  style : Style
deriving DecidableEq, Repr

namespace Line

def output (text : String) : Line := ⟨text, .output⟩

def error (text : String) : Line := ⟨text, .error⟩

def info (text : String) : Line := ⟨text, .info⟩

def hint (text : String) : Line := ⟨text, .hint⟩

def directory (text : String) : Line := ⟨text, .directory⟩

def clear : Line := ⟨"", .clear⟩

/-- The line of a listing for a name of a given kind. -/
def ofKind (text : String) : Kind → Line
  | .file => .output text
  | .directory => .directory text

end Line

end VirtualShell
