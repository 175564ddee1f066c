import VirtualShell.Files.Lookup
import VirtualShell.Pattern.Matcher
import VirtualShell.Pattern.Size
import VirtualShell.Text.Lower
import VirtualShell.Text.Pieces

/-! # Name patterns

How entries are picked by name.  A star stands for any run of characters and makes the pattern cover
the whole name; without a star the pattern may occur anywhere in the name.  Case is ignored.
-/

namespace VirtualShell

inductive NamePattern
  | any
  | wildcard (pattern : Pattern)
  /-- The text, which is in lower case, occurs in the name in lower case. -/
  | containing (text : List Char)

namespace NamePattern

/-- The characters that a pattern of lines gives a meaning of their own. -/
def special : List Char := "\\.+*?()|[]\x7b\x7d^$#&-~".toList

/-- The pattern of lines for a text that stands for itself. -/
def verbatim (text : List Char) : List Char :=
  text.flatMap fun c => if special.contains c then ['\\', c] else [c]

/-- The pattern of lines for a whole name that consists of the pieces, with any run of characters
between one piece and the next. -/
def wholeName (pieces : List (List Char)) : List Char :=
  '^' :: (['.', '*'].intercalate (pieces.map verbatim)) ++ ['$']

def ofText (text : String) : Except FileError NamePattern :=
  let chars := text.toList
  if text = "*" then .ok .any
  else if chars.contains '*' then
    match Pattern.compile (String.ofList (wholeName (Text.pieces '*' chars))) true with
    | .ok pattern => .ok (.wildcard pattern)
    | .error e => .error (.invalidPattern text e.reason)
  else .ok (.containing (Text.lower chars))

def accepts : NamePattern → String → Bool
  | any, _ => true
  | wildcard pattern, name => pattern.occursIn name
  | containing text, name => Text.occursIn text (Text.lower name.toList)

end NamePattern

end VirtualShell
