import VirtualShell.Text.Pieces

/-! # Paths

A path is a written text whose slash-separated, non-empty parts are its segments.  Reading the
segments and writing them again gives the canonical form.  Resolving one path against another only
looks at the texts; no tree is consulted.
-/

namespace VirtualShell.Path

open Text

/-- The segments that a path names, from the root down; the root has none. -/
def segments (path : String) : List String :=
  ((pieces '/' path.toList).filter (!·.isEmpty)).map String.ofList

/-- The absolute path with the given segments. -/
def ofSegments : List String → String
  | [] => "/"
  | names => String.join (names.map ("/" ++ ·))

/-- The path with its segments written once, each after a single slash. -/
def canonical (path : String) : String := ofSegments (segments path)

/-- Where `target` leads from `current`.  Only a whole target of one or two dots is read as a
direction; dots among other segments are names. -/
def resolve (current target : String) : String :=
  if target.toList.head? = some '/' then target
  else if target = "." then current
  else if target = ".." then ofSegments (segments current).dropLast
  else if current = "/" then "/" ++ target
  else current ++ "/" ++ target

/-- The last segment, or a slash for the root. -/
def base (path : String) : String := (segments path).getLastD "/"

/-- The canonical path without its last segment. -/
def parent (path : String) : String := ofSegments (segments path).dropLast

/-- The path of the entry `name` inside the directory `directory`. -/
def child (directory name : String) : String :=
  if directory = "/" ∨ directory = "" then "/" ++ name
  else
    let trimmed := (directory.toList.reverse.dropWhile (· = '/')).reverse
    String.ofList trimmed ++ "/" ++ name

end VirtualShell.Path
