import VirtualShell.Files.Volume
import VirtualShell.Input.Alias

/-! # Sessions

Everything besides the tree that a command may read or change: the directories, the identity of the
user, the aliases and the history.
-/

namespace VirtualShell

structure Session where
  current : String
  previous : String
  user : String
  host : String
  home : String
  aliases : AliasTable
  history : List String
  /-- Changes of the aliases and the history are to be saved. -/
  persistent : Bool

namespace Session

/-- The most lines that the history keeps. -/
def historyLimit : Nat := 1000

/-- A session that stands in its home directory, without aliases and history. -/
def start (user host home : String) (persistent : Bool) : Session :=
  ⟨home, home, user, host, home, .empty, [], persistent⟩

def changeDirectory (path : String) (session : Session) : Session :=
  { session with current := path, previous := session.current }

/-- The working directory as the prompt shows it: the home directory is a tilde. -/
def shownDirectory (session : Session) : String :=
  if session.current = session.home then "~"
  else
    let home := (session.home ++ "/").toList
    let current := session.current.toList
    if home.isPrefixOf current then "~/" ++ String.ofList (current.drop home.length)
    else session.current

def prompt (session : Session) : String :=
  session.user ++ "@" ++ session.host ++ ":" ++ session.shownDirectory ++ "$"

/-- The history after one more line; the oldest lines give way. -/
def recorded (line : String) (history : List String) : List String :=
  let all := history ++ [line]
  all.drop (all.length - historyLimit)

end Session

namespace AliasTable

def toJson (table : AliasTable) : Json :=
  .object (table.entries.map fun (name, value) => (name, .string value))

/-- The fields of an object whose values are strings. -/
def stringFields? : List (String × Json) → Option (List (String × String))
  | [] => some []
  | (name, .string value) :: rest => (stringFields? rest).map ((name, value) :: ·)
  | _ => none

def ofSaved? (text : String) : Option AliasTable :=
  match Json.parse? Node.nestingLimit text.toList with
  | some (.object fields) => (stringFields? fields).map ofList
  | _ => none

end AliasTable

namespace Session

def historyJson (history : List String) : Json := .array (history.map .string)

/-- The items of an array whose values are strings. -/
def stringItems? : List Json → Option (List String)
  | [] => some []
  | .string value :: rest => (stringItems? rest).map (value :: ·)
  | _ => none

/-- The history that was saved as a text. -/
def historyOfSaved? (text : String) : Option (List String) :=
  match Json.parse? Node.nestingLimit text.toList with
  | some (.array items) => stringItems? items
  | _ => none

end Session

namespace Save

/-- The request to store a table of aliases. -/
def aliases (table : AliasTable) : Save := ⟨aliasesKey, table.toJson.render⟩

def history (lines : List String) : Save := ⟨historyKey, (Session.historyJson lines).render⟩

end Save

end VirtualShell
