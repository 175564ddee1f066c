import VirtualShell.Files.Lookup
import VirtualShell.Search.Name
import VirtualShell.Search.Walk

/-! # Finding entries and lines

Which entries below a path have a name that fits, and which lines of the files there hold a match.
-/

namespace VirtualShell

structure LineMatch where
  number : Nat
  text : String
deriving DecidableEq, Repr

/-- The lines of one file that hold a match. -/
structure FileMatches where
  file : String
  lines : List LineMatch
deriving DecidableEq, Repr

/-- The expression for a pattern of lines. -/
def linePattern (pattern : String) (caseSensitive : Bool) : Except FileError Pattern :=
  match Pattern.compile pattern (!caseSensitive) with
  | .ok compiled => .ok compiled
  | .error e => .error (.invalidPattern pattern e.reason)

/-- The lines of a content that hold a match. -/
def matchingLines (pattern : Pattern) (content : String) : List LineMatch :=
  ((Text.linesOf content).zipIdx 1).filterMap fun (line, number) =>
    if pattern.occursIn line then some ⟨number, line⟩ else none

namespace Node

/-- The entries below a path whose names fit a pattern. -/
def find (root : Node) (start pattern : String) (deep : Bool) : Except FileError (List Found) := do
  let node ← root.at? start
  let condition ← NamePattern.ofText pattern
  return (node.descendants (Path.canonical start) deep).filter (condition.accepts ·.name)

def findFrom (root : Node) (current target pattern : String) : Except FileError (List Found) :=
  root.find (Path.resolve current target) pattern true

/-- The lines of a file that hold a match; nothing when the pattern is refused or there is no such
file. -/
def searchFile (root : Node) (current name pattern : String) (caseSensitive : Bool) :
    Option (List LineMatch) :=
  match linePattern pattern caseSensitive, root.contentOf current name with
  | .ok compiled, .ok content => some (matchingLines compiled content)
  | _, _ => none

def matchesIn (pattern : Pattern) (path : String) : Node → Option FileMatches
  | .directory _ => none
  | .file content =>
    match matchingLines pattern content with
    | [] => none
    | lines => some ⟨path, lines⟩

/-- The files at or below a path with the lines that hold a match, without the files that have none. -/
def searchBelow (root : Node) (start pattern : String) (deep caseSensitive : Bool) :
    Except FileError (List FileMatches) := do
  let node ← root.at? start
  let compiled ← linePattern pattern caseSensitive
  let path := Path.canonical start
  if node.isDirectory then
    return (node.descendants path deep).filterMap fun found => matchesIn compiled found.path found.node
  else return (matchesIn compiled path node).toList

/-- The paths of the files below a path; there are none below a path that leads nowhere. -/
def filesBelow (root : Node) (start : String) (deep : Bool) : List String :=
  match root.at? start with
  | .error _ => []
  | .ok node =>
    ((node.descendants (Path.canonical start) deep).filter (!·.node.isDirectory)).map (·.path)

end Node

end VirtualShell
