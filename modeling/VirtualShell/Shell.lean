import VirtualShell.Interpreter
import VirtualShell.Storage.Store
import VirtualShell.Tree.Node

/-! # Shells

A shell restores its state from a store and runs input lines.  What it saves is read again only when
another shell starts over the same store.
-/

namespace VirtualShell

structure Options where
  user : String := "user"
  host : String := "webterm"
  /-- The home directory, which is created if it is missing. -/
  home : String := "/home/user"
  /-- The first working directory, if it is not the home directory. -/
  start : Option String := none
  /-- Aliases that are defined unless the store knows them. -/
  aliases : AliasTable := .empty

/-- A shell between two lines of input. -/
structure Shell where
  state : State

def Shell.store (shell : Shell) : Store := shell.state.volume.store

/-- What a line of input printed, and the saves that it attempted. -/
structure Result where
  lines : List Line
  saves : List Save

namespace Result

/-- One if an error was printed, zero otherwise. -/
def exitCode (result : Result) : Nat :=
  if result.lines.any (·.style = .error) then 1 else 0

def toJson (result : Result) : Json :=
  .object [("lines", .array (result.lines.map fun line =>
    .object [("text", .string line.text), ("style", .string line.style.word)]))]

end Result

namespace Volume

/-- The tree in a store.  When there is none, or none that can be read, the seed tree is used and saved
at once. -/
def restore (store : Store) : Volume :=
  match (store.read? Save.filesKey).bind Node.ofBlob? with
  | some root => ⟨⟨root, store⟩, []⟩
  | none => attempt (.files .seed) ⟨⟨.seed, store⟩, []⟩

end Volume

namespace Session

/-- The session with the aliases and the history in a store, as far as they can be read. -/
def restore (store : Store) (session : Session) : Session :=
  { session with
    aliases := ((store.read? Save.aliasesKey).bind AliasTable.ofSaved?).getD .empty
    history := ((store.read? Save.historyKey).bind historyOfSaved?).getD [] }

end Session

namespace State

/-- Defines an alias unless there is one of that name. -/
def addAlias (state : State) (definition : String × String) : State :=
  if (state.session.aliases.value? definition.1).isSome then state
  else state.setAlias definition.1 definition.2

/-- Creates the directories below `current` that the names lead to, up to the first that fails. -/
def ensureDirectories (current : String) : List String → State → State
  | [], state => state
  | name :: rest, state =>
    let next := Path.resolve current name
    if state.volume.root.exists? next then ensureDirectories next rest state
    else match Edit.createDirectory current name state.volume with
      | .ok _ volume => ensureDirectories next rest { state with volume }
      | .error _ volume => { state with volume }

/-- Stands the session in its first working directory, if that is one. -/
def standIn (home start : String) (state : State) : State :=
  match state.volume.root.changePath home start with
  | .ok path => { state with session := { state.session with current := path, previous := path } }
  | .error _ => state

/-- What a shell finds in a store: first the tree, then the aliases and the history. -/
def opened (options : Options) (now : Moment) (store : Store) : State :=
  let volume := Volume.restore store
  ⟨(Session.start options.user options.host options.home true).restore volume.store, volume, now⟩

/-- The state with which a shell begins over a store. -/
def restore (options : Options) (now : Moment) (store : Store) : State :=
  let state := options.aliases.foldl addAlias (opened options now store)
  let state := state.ensureDirectories "/" (Path.segments options.home)
  state.standIn options.home (options.start.getD options.home)

/-- The state with an empty journal. -/
def settled (state : State) : State := { state with volume := { state.volume with journal := [] } }

end State

namespace Shell

/-- Empties the journal of a state, and tells what was in it. -/
def settle (state : State) : Shell × List Save := (⟨state.settled⟩, state.volume.journal)

/-- Starts a shell over a store, and tells the saves of the start. -/
def start (options : Options) (now : Moment) (store : Store) : Shell × List Save :=
  settle (State.restore options now store)

/-- Runs a line of input.  A line that is not blank is added to the history first. -/
def exec (shell : Shell) (line : String) : Result × Shell :=
  let line := String.ofList (Text.trim line.toList)
  if line.isEmpty then (⟨[], []⟩, shell)
  else
    let (lines, state) := Interpreter.execute .standard line (shell.state.record line)
    let (shell, saves) := settle state
    (⟨lines, saves⟩, shell)

/-- The content of a file, named from the working directory. -/
def contentOf (shell : Shell) (path : String) : Except FileError String :=
  shell.state.volume.root.contentOf shell.state.session.current path

end Shell

end VirtualShell
