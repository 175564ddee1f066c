import VirtualShell.Command.LineCount
import VirtualShell.State.Action

/-! # Reading files

The commands that print or measure the content of files.
-/

namespace VirtualShell.Command

/-- The content of a file, on behalf of a command. -/
def contentOf (command file : String) : Action String := do
  let root ← Action.root
  Action.expect command file (root.contentOf (← Action.directory) file)

/-- Applies an action to each item and puts the lines one after the other. -/
def forEach {α : Type} (items : List α) (run : α → Action (List Line)) : Action (List Line) :=
  items.foldlM (fun lines item => return lines ++ (← run item)) []

def cat (arguments : List String) : Action (List Line) := do
  if arguments.isEmpty then Action.misuse "cat: missing file operand"
  forEach arguments fun file => return (Text.linesOf (← contentOf "cat" file)).map Line.output

/-- Prints a selection of the lines of files; several files get a heading each. -/
def selectLines (command : String) (select : Nat → String → List String)
    (arguments : List String) : Action (List Line) := do
  let options ← match parseLineCount command arguments with
    | .ok options => pure options
    | .error e => throw e
  let headings := decide (1 < options.files.length)
  forEach options.files.zipIdx fun (file, index) => do
    let content ← contentOf command file
    let heading := if headings then
        (if 0 < index then [Line.output ""] else []) ++ [Line.info ("==> " ++ file ++ " <==")]
      else []
    return heading ++ (select options.lines content).map Line.output

def head : List String → Action (List Line) := selectLines "head" firstLines

def tail : List String → Action (List Line) := selectLines "tail" lastLines

structure Counts where
  lines : Nat
  words : Nat
  chars : Nat
deriving DecidableEq, Repr

/-- Where a count through a content stands. -/
structure CountScan where
  counts : Counts
  inWord : Bool

/-- Counts one more character.  A word counts when it ends. -/
def CountScan.step (scan : CountScan) (c : Char) : CountScan :=
  let blank := Text.isBlank c
  ⟨⟨scan.counts.lines + (if c = '\n' then 1 else 0),
    scan.counts.words + (if blank && scan.inWord then 1 else 0),
    scan.counts.chars + 1⟩, !blank⟩

/-- The numbers of a content.  A last line or word that is not ended counts as well. -/
def Counts.ofContent (content : List Char) : Counts :=
  let scan := content.foldl CountScan.step ⟨⟨0, 0, 0⟩, false⟩
  let openLine := content.getLast?.any (· ≠ '\n')
  ⟨scan.counts.lines + (if openLine then 1 else 0),
    scan.counts.words + (if scan.inWord then 1 else 0), scan.counts.chars⟩

def wc (arguments : List String) : Action (List Line) := do
  if arguments.isEmpty then Action.misuse "wc: missing file operand"
  forEach arguments fun file => do
    let counts := Counts.ofContent (← contentOf "wc" file).toList
    return [.output (" ".intercalate
      [toString counts.lines, toString counts.words, toString counts.chars, file])]

end VirtualShell.Command
