import VirtualShell.State.Action
import VirtualShell.Text.Basic

/-! # The session's own commands

The commands that show and change the aliases, the history and the identity of the user.
-/

namespace VirtualShell.Command

def definition (name value : String) : Line := .output ("alias " ++ name ++ "='" ++ value ++ "'")

/-- Defines or shows the alias that one argument names. -/
def aliasArgument (argument : String) : Action (List Line) := do
  match argument.toList.span (· ≠ '=') with
  | (name, _ :: value) =>
    if name.isEmpty || name.any Text.isBlank then
      return [.error ("alias: '" ++ String.ofList name ++ "': invalid alias name")]
    Action.setAlias (String.ofList name) (String.ofList value)
    return []
  | (_, []) =>
    match (← Action.session).aliases.value? argument with
    | some value => return [definition argument value]
    | none => return [.error ("alias: " ++ argument ++ ": not found")]

def aliases (given : List String) : Action (List Line) := do
  if given.isEmpty then
    return (← Action.session).aliases.entries.map fun (name, value) => definition name value
  given.foldlM (fun lines argument => return lines ++ (← aliasArgument argument)) []

def unaliasArgument (name : String) : Action (List Line) := do
  if ← Action.removeAlias name then return []
  return [.error ("unalias: " ++ name ++ ": not found")]

def unalias (given : List String) : Action (List Line) := do
  if given.isEmpty then Action.misuse "unalias: usage: unalias [-a] name [name ...]"
  if given.contains "-a" then
    Action.clearAliases
    return []
  given.foldlM (fun lines argument => return lines ++ (← unaliasArgument argument)) []

/-- A text with blanks in front up to a width of five. -/
def padded (text : String) : String := String.ofList (text.toList.leftpad 5 ' ')

/-- The last lines of a history with their places in it, counted from one. -/
def recent (count : Nat) (history : List String) : List Line :=
  let start := history.length - count
  ((history.drop start).zipIdx (start + 1)).map fun (line, place) =>
    .output (padded (toString place) ++ "  " ++ line)

def history (given : List String) : Action (List Line) := do
  match given with
  | [] =>
    let lines := (← Action.session).history
    return recent lines.length lines
  | "-c" :: _ =>
    Action.clearHistory
    return []
  | count :: _ =>
    match Text.count? count.toList with
    | none => Action.misuse ("history: " ++ count ++ ": numeric argument required")
    | some n => return recent n (← Action.session).history

def whoami (_ : List String) : Action (List Line) := return [.output (← Action.session).user]

def clear (_ : List String) : Action (List Line) := return [.clear]

def echo (given : List String) : Action (List Line) := return [.output (" ".intercalate given)]

end VirtualShell.Command
