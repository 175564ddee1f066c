import VirtualShell.Files.Edit
import VirtualShell.State.Calendar
import VirtualShell.State.Error
import VirtualShell.State.Session

/-! # Actions

What commands do: they look at the state and change it through the few operations here.  An action
that fails keeps what it did before.
-/

namespace VirtualShell

/-- The session, the tree with its store, and the time of day. -/
structure State where
  session : Session
  volume : Volume
  now : Moment

/-- A step that may change the state and may fail. -/
abbrev Action := EStateM ShellError State

namespace State

/-- Attempts a save, if the session is to be saved. -/
def request (save : Save) (state : State) : State :=
  if state.session.persistent then { state with volume := state.volume.attempt save } else state

def setAliases (table : AliasTable) (state : State) : State :=
  { state with session := { state.session with aliases := table } }.request (.aliases table)

def setHistory (lines : List String) (state : State) : State :=
  { state with session := { state.session with history := lines } }.request (.history lines)

def setAlias (name value : String) (state : State) : State :=
  state.setAliases (state.session.aliases.insert (Text.lowerOf name) value)

def record (line : String) (state : State) : State :=
  state.setHistory (Session.recorded line state.session.history)

end State

namespace Action

def root : Action Node := return (← get).volume.root

def session : Action Session := return (← get).session

def directory : Action String := return (← get).session.current

def moment : Action Moment := return (← get).now

/-- Fails with the error of an answer, on behalf of a command and its operand. -/
def expect {α : Type} (command operand : String) (answer : Except FileError α) : Action α :=
  match answer with
  | .ok value => return value
  | .error e => throw (.files command operand e)

/-- Fails because the command was called in a wrong way. -/
def misuse {α : Type} (message : String) : Action α := throw (.usage message)

/-- Carries an edit out, on behalf of a command and its operand. -/
def edit (command operand : String) (change : Edit Unit) : Action Unit := fun state =>
  match change state.volume with
  | .ok _ volume => .ok () { state with volume }
  | .error e volume => .error (.files command operand e) { state with volume }

/-- Moves the session to another directory. -/
def changeDirectory (path : String) : Action Unit :=
  modify fun state => { state with session := state.session.changeDirectory path }

def setAlias (name value : String) : Action Unit := modify (State.setAlias name value)

/-- Removes an alias, and tells whether there was one. -/
def removeAlias (name : String) : Action Bool := do
  let table := (← session).aliases
  if (table.value? name).isSome then
    modify (State.setAliases (table.erase (Text.lowerOf name)))
    return true
  else return false

def clearAliases : Action Unit := modify (State.setAliases .empty)

def clearHistory : Action Unit := modify (State.setHistory [])

end Action

end VirtualShell
