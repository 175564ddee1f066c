import VirtualShell.Input.Words
import VirtualShell.Table
import VirtualShell.Text.Lower

/-! # Aliases

A table gives names a value that replaces the first word of a command.  The names are in lower case.
-/

namespace VirtualShell

/-- The values of aliases under their names. -/
abbrev AliasTable := Table String

namespace AliasTable

/-- The table of a list of names and values, where a later value replaces an earlier one. -/
def ofList (pairs : List (String × String)) : AliasTable :=
  pairs.foldl (fun table pair => table.insert pair.1 pair.2) .empty

/-- The value of an alias in any case of its name. -/
def value? (table : AliasTable) (name : String) : Option String :=
  table.get? (Text.lowerOf name)

end AliasTable

namespace Input

/-- The most aliases that may be in the course of being expanded. -/
def aliasDepth : Nat := 16

/-- What becomes of a command when its first word is looked up. -/
inductive Expansion
  | unchanged
  | replaced (name line : String)
  /-- The alias would be expanded inside itself, or too deeply. -/
  | cycle (name : String)
deriving DecidableEq, Repr

/-- Replaces the first word of a command by the value of an alias. -/
def expand (table : AliasTable) (isCommand : String → Bool) (expanding : List String)
    (command : String) : Expansion :=
  let (first, rest) := firstWord command.toList
  let name := String.ofList (Text.lower first)
  match table.get? name with
  | none => .unchanged
  | some value =>
    -- Inside its own expansion a name stands for the command of that name, if there is one.
    if expanding.contains name then
      if isCommand name then .unchanged else .cycle name
    else if aliasDepth ≤ expanding.length then .cycle name
    else if rest.isEmpty then .replaced name value
    else .replaced name (value ++ " " ++ String.ofList rest)

end Input

end VirtualShell
