import VirtualShell.Command.Registry
import VirtualShell.Command.Run
import VirtualShell.Input.Shape

/-! # The interpreter

Running one input line: its stages one after the other, aliases replaced, and each command looked up
in the registry.  What a line prints is the result; the state is carried along.
-/

namespace VirtualShell.Interpreter

open Input

/-- A part of a run: it prints lines and changes the state. -/
abbrev Run := StateM State (List Line)

/-- The lines of a failed action, in the state that it left. -/
def reportError (e : ShellError) : Run := fun state =>
  (e.report state.volume.root state.session.current, state)

def runAction (action : Action (List Line)) : Run := fun state =>
  match action state with
  | .ok lines state => (lines, state)
  | .error e state => reportError e state

/-- Runs the parts in order and prints what each prints. -/
def inOrder (parts : List Run) : Run :=
  parts.foldlM (fun lines part => return lines ++ (← part)) []

/-- The lines for a name that no program has. -/
def notFound (registry : Registry) (written name : String) : List Line :=
  .error ("bash: " ++ written ++ ": command not found") ::
    match Suggestion.nearest name registry.names with
    | some candidate => [.hint ("Did you mean '" ++ candidate ++ "'?")]
    | none => []

def dispatch (registry : Registry) (command : String) : Run :=
  match words command with
  | [] => return []
  | first :: arguments =>
    let name := Text.lowerOf first
    match registry.get? name with
    | none => return notFound registry first name
    | some program =>
      if arguments.contains "--help" then return Command.usageLines program
      else match program with
        | .builtin builtin => runAction (builtin.run registry arguments)
        | .faulty => return [.error ("Error: " ++ name ++ ": internal error")]

/-- The pattern of a filter and whether it is to be inverted, read from the words after its name. -/
def filterOptions : Nat → Bool → List Char → Bool × List Char
  | 0, invert, text => (invert, text)
  | fuel + 1, invert, text =>
    let (word, rest) := firstWord text
    if word = ['-', 'v'] then filterOptions fuel true rest
    else if word = ['-', 'i'] then filterOptions fuel invert rest
    else (invert, text)

/-- The printed lines that pass a filter, or the reason why there is no filter. -/
def filterLines (arguments : List Char) (printed : List Line) : List Line :=
  let (invert, rest) := filterOptions arguments.length false (Text.trim arguments)
  let pattern := String.ofList (unquote rest)
  if pattern.isEmpty then [.error "grep: missing pattern"]
  else match linePattern pattern false with
    | .error e => [.error ("grep: " ++ e.message)]
    | .ok compiled => printed.filter fun line =>
        line.style ≠ .clear && compiled.occursIn line.text != invert

/-- What becomes of the lines that the first stage of a pipeline prints.  A second stage that searches
filters them; any other stage is only named. -/
def pipe (later : List String) (printed : List Line) : List Line :=
  match later with
  | [] => printed
  | second :: _ =>
    let (name, arguments) := firstWord second.toList
    if name.map Char.toLower = ['g', 'r', 'e', 'p'] then filterLines arguments printed
    else printed ++ [.info ("(pipe to '" ++ " | ".intercalate later ++ "' not executed)")]

def runPipeline (runCommand : String → Run) (stages : List String) : Run :=
  match stages with
  | [] => return []
  | first :: later => return pipe later (← runCommand first)

/-- Runs a line: the stages of a chain are lines again, and each runs whatever those before print. -/
def runLine (runCommand : String → Run) (line : String) : Run :=
  match _hshape : shape line with
  | .chain _ stages => inOrder (stages.attach.map fun stage => runLine runCommand stage.1)
  | .pipeline stages => runPipeline runCommand stages
  | .single command => runCommand command
termination_by line.toList.length
decreasing_by exact length_lt_of_mem_chain _hshape stage.2

/-- Runs a command with the aliases `expanding` being expanded around it.  Without `deeper` no more
aliases may be expanded. -/
def runExpanded (registry : Registry) (deeper : Option (List String → String → Run))
    (expanding : List String) (command : String) : Run := fun state =>
  let command := String.ofList (Text.trim command.toList)
  if command.isEmpty then ([], state)
  else match expand state.session.aliases registry.contains expanding command with
    | .unchanged => dispatch registry command state
    | .cycle name => reportError (.aliasCycle name) state
    | .replaced name line =>
      match deeper with
      | none => reportError (.aliasCycle name) state
      -- The value is a line of its own, with chains and pipelines.
      | some runInner => runLine (runInner (name :: expanding)) line state

/-- Runs a command, where `depth` more aliases may be expanded. -/
def runCommand (registry : Registry) : (depth : Nat) → (expanding : List String) → String → Run
  | 0 => runExpanded registry none
  | depth + 1 => runExpanded registry (some (runCommand registry depth))

def execute (registry : Registry) (line : String) : Run :=
  runLine (runCommand registry aliasDepth []) line

end VirtualShell.Interpreter
