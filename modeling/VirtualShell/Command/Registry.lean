import VirtualShell.Command.Builtin
import VirtualShell.Table

/-! # Registries

The commands that an interpreter knows, by name and in the order of the names, and the name that is
nearest to a mistyped one.
-/

namespace VirtualShell

inductive Program
  | builtin (command : Builtin)
  /-- A command that breaks off whenever it is run. -/
  | faulty
deriving DecidableEq, Repr

def Program.usage : Program → String
  | builtin command => command.usage
  | faulty => "Usage: faulty"

abbrev Registry := Table Program

namespace Registry

/-- The registry with a program under a name; a program that had the name is replaced. -/
def register (name : String) (program : Program) (registry : Registry) : Registry :=
  registry.insert name program

def contains (registry : Registry) (name : String) : Bool := (registry.get? name).isSome

/-- The registry of the built-in commands. -/
def standard : Registry := ⟨Builtin.all.map fun command => (command.name, .builtin command), by decide⟩

end Registry

namespace Suggestion

/-- The next row of the distance table: `left` is the entry before, `corner` the one above it, `above`
the rest of the row above. -/
def nextRow (a : Char) (left corner : Nat) : List Char → List Nat → List Nat
  | b :: bs, up :: above =>
    let entry := min (min (up + 1) (left + 1)) (corner + if a = b then 0 else 1)
    entry :: nextRow a entry up bs above
  | _, _ => []

/-- The row for one more character of the first text. -/
def advanceRow (second : List Char) (row : List Nat) (a : Char) : List Nat :=
  match row with
  | [] => []
  | corner :: above => (corner + 1) :: nextRow a (corner + 1) corner second above

/-- The least number of characters to insert, delete or replace that turns one text into another. -/
def distance (first second : List Char) : Nat :=
  (first.foldl (advanceRow second) (List.range (second.length + 1))).getLastD 0

/-- The largest distance at which a name is still suggested. -/
def farthest : Nat := 2

/-- Keeps the better of the best candidate so far and the next one; a tie keeps the earlier. -/
def better (input : String) (best : Option (String × Nat)) (candidate : String) :
    Option (String × Nat) :=
  let found := distance input.toList candidate.toList
  match best with
  | none => some (candidate, found)
  | some (_, least) => if found < least then some (candidate, found) else best

/-- The nearest candidate, if it is near enough; the first of several. -/
def nearest (input : String) (candidates : List String) : Option String :=
  ((candidates.foldl (better input) none).filter (·.2 ≤ farthest)).map (·.1)

end Suggestion

end VirtualShell
