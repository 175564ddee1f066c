import VirtualShell.Text.Basic

/-! # Words of a command

A command is cut into words at blanks.  Quotes of either kind hold blanks together and are taken away;
a quote that is never closed reaches to the end.
-/

namespace VirtualShell.Input

open Text

/-- Where a scan through a command stands. -/
structure Scan where
  /-- The finished words, the last one first. -/
  words : List String
  /-- The characters of the current word, the last one first. -/
  current : List Char
  /-- A word has begun, even if it has no characters yet. -/
  inWord : Bool
  /-- The quote that is open. -/
  quote : Option Char

namespace Scan

def start : Scan := ⟨[], [], false, none⟩

def finishWord (scan : Scan) : Scan :=
  if scan.inWord then
    { scan with words := String.ofList scan.current.reverse :: scan.words, current := [], inWord := false }
  else scan

def step (scan : Scan) (c : Char) : Scan :=
  match scan.quote with
  | some q => if c = q then { scan with quote := none } else { scan with current := c :: scan.current }
  | none =>
    if c = '\'' ∨ c = '"' then { scan with quote := some c, inWord := true }
    else if isBlank c then scan.finishWord
    else { scan with current := c :: scan.current, inWord := true }

end Scan

def words (command : String) : List String :=
  (command.toList.foldl Scan.step Scan.start).finishWord.words.reverse

/-- The first run of characters without blanks, and what follows it without the blanks in between. -/
def firstWord (text : List Char) : List Char × List Char :=
  let (first, rest) := (trim text).span (!isBlank ·)
  (first, trimLeft rest)

/-- The text without one pair of equal quotes around it. -/
def unquote (text : List Char) : List Char :=
  match text with
  | [] => []
  | first :: rest =>
    if (first = '"' ∨ first = '\'') ∧ rest.getLast? = some first then rest.dropLast else text

end VirtualShell.Input
