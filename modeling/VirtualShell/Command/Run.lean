import VirtualShell.Command.Date
import VirtualShell.Command.Listing
import VirtualShell.Command.Personal
import VirtualShell.Command.Registry
import VirtualShell.Command.Searching

/-! # Running commands

The commands that tell about other commands, and the action of every built-in command.
-/

namespace VirtualShell.Command

def topics : List (String × List Builtin) := [
  ("Files", [.ls, .cat, .head, .tail, .wc, .touch, .mkdir, .rm, .rmdir, .cp, .mv]),
  ("Search", [.find, .grep]),
  ("Navigation", [.cd, .pwd, .tree]),
  ("Shell", [.echo, .whoami, .date, .clear, .history, .aliases, .unalias, .which, .help])]

def usageLines (program : Program) : List Line := (Text.linesOf program.usage).map .output

/-- The line of the overview for a topic, with the commands that the registry knows. -/
def topicLine (registry : Registry) (topic : String × List Builtin) : Option Line :=
  match (topic.2.map Builtin.name).filter registry.contains with
  | [] => none
  | names => some (.output ("  " ++ topic.1 ++ ": " ++ ", ".intercalate names))

def help (registry : Registry) (given : List String) : Action (List Line) :=
  match given with
  | topic :: _ =>
    match registry.get? (Text.lowerOf topic) with
    | some program => return usageLines program
    | none => Action.misuse ("help: no help topics match '" ++ topic ++ "'")
  | [] => return .info "Available commands:" :: topics.filterMap (topicLine registry) ++
      [.hint "Use 'help <command>' or '<command> --help' for details."]

def whichName (registry : Registry) (table : AliasTable) (name : String) : Line :=
  let lowered := Text.lowerOf name
  match table.value? lowered with
  | some value => .output (name ++ ": aliased to '" ++ value ++ "'")
  | none =>
    if registry.contains lowered then .output (lowered ++ ": shell built-in command")
    else .error ("which: no " ++ name ++ " in (built-ins)")

def which (registry : Registry) (given : List String) : Action (List Line) := do
  if given.isEmpty then Action.misuse "which: missing command name"
  let table := (← Action.session).aliases
  return given.map (whichName registry table)

end VirtualShell.Command

namespace VirtualShell.Builtin

/-- What a built-in command does with its arguments. -/
def run (registry : Registry) : Builtin → List String → Action (List Line)
  | aliases => Command.aliases
  | cat => Command.cat
  | cd => Command.cd
  | clear => Command.clear
  | cp => Command.cp
  | date => Command.date
  | echo => Command.echo
  | find => Command.find
  | grep => Command.grep
  | head => Command.head
  | help => Command.help registry
  | history => Command.history
  | ls => Command.ls
  | mkdir => Command.mkdir
  | mv => Command.mv
  | pwd => Command.pwd
  | rm => Command.rm
  | rmdir => Command.rmdir
  | tail => Command.tail
  | touch => Command.touch
  | tree => Command.tree
  | unalias => Command.unalias
  | wc => Command.wc
  | which => Command.which registry
  | whoami => Command.whoami

end VirtualShell.Builtin
