import VirtualShell.Json.Printer
import VirtualShell.Json.Skim
import VirtualShell.Tree.Node

/-! # The saved form of a tree

A tree is saved as an object with the root under a slash.  A node is an object with its kind and, for a
file, its content, for a directory its entries; a directory without entries has no such field.  Reading
also accepts missing fields, unknown fields and the forms that list the fields in an array.
-/

namespace VirtualShell

namespace Node

mutual
def toJson : Node → Json
  | .file content => .object [("type", .string "file"), ("content", .string content)]
  | .directory [] => .object [("type", .string "directory")]
  | .directory (entry :: rest) => .object
      [("type", .string "directory"), ("children", .object (entriesToJson (entry :: rest)))]

def entriesToJson : List (String × Node) → List (String × Json)
  | [] => []
  | (name, node) :: rest => (name, node.toJson) :: entriesToJson rest
end

def kindOfWord? (word : String) : Option Kind :=
  if word = "file" then some .file else if word = "directory" then some .directory else none

/-- The kind that a tag names.  Below the root a tag may also be the position of the kind. -/
def kindOfTag? (below : Bool) : Json → Option Kind
  | .string word => kindOfWord? word
  | tag =>
    if below then
      match tag.nat? with
      | some 0 => some .file
      | some 1 => some .directory
      | _ => none
    else none

def fieldValues (name : String) (fields : List (String × Json)) : List Json :=
  (fields.filter (·.1 = name)).map (·.2)

mutual
/-- The node that a value stands for, at the root or below it. -/
def ofJson? (below : Bool) : Json → Option Node
  | .object fields =>
    match fieldValues "type" fields with
    | [tag] =>
      match kindOfTag? below tag with
      | some .file =>
        match fieldValues "content" fields with
        | [] => some (.file "")
        | [.string content] => some (.file content)
        | _ => none
      | some .directory => (childrenField? none fields).map fun entries => .directory (entries.getD [])
      | none => none
    | _ => none
  | .array (tag :: parts) =>
    match kindOfTag? below tag with
    | some .file =>
      match parts with
      | [] => some (.file "")
      | [.string content] => some (.file content)
      | _ => none
    | some .directory =>
      match parts with
      | [] => some (.directory [])
      | [.object fields] => (entriesOfFields? [] fields).map .directory
      | _ => none
    | none => none
  | _ => none

/-- The entries in the field that holds them, which may be missing but not repeated. -/
def childrenField? (found : Option (Entries Node)) :
    List (String × Json) → Option (Option (Entries Node))
  | [] => some found
  | (name, value) :: rest =>
    if name = "children" then
      match found, value with
      | none, .object fields =>
        match entriesOfFields? [] fields with
        | some entries => childrenField? (some entries) rest
        | none => none
      | _, _ => none
    else childrenField? found rest

/-- The entries for a list of fields, after those already read.  A repeated name keeps its place and
gets the later value. -/
def entriesOfFields? (done : Entries Node) : List (String × Json) → Option (Entries Node)
  | [] => some done
  | (name, value) :: rest =>
    match ofJson? true value with
    | some node => entriesOfFields? (done.put name node) rest
    | none => none
end

/-- The deepest nesting of arrays and objects in a saved text that is read. -/
def nestingLimit : Nat := 127

def blob (root : Node) : String := Json.render (.object [("/", root.toJson)])

/-- The root that is kept so far while the fields around it are read: the first value under a slash. -/
def rootFields? : Nat → Option Json → List Char → Option (Option Json × List Char)
  | 0, _, _ => none
  | fuel + 1, found, text => do
    let (name, text) ← Json.readName text
    let (found, text) ←
      if name = "/" then
        match found with
        | some _ => none
        | none => (Json.readValue (nestingLimit - 1) text).map fun (root, rest) => (some root, rest)
      else (Json.skim text).map (found, ·)
    match Json.skipSpace text with
    | ',' :: rest => rootFields? fuel found rest
    | '\x7d' :: rest => some (found, rest)
    | _ => none

/-- The value of the root in a saved text: under a slash in an object, or alone in an array. -/
def rootValue? (text : List Char) : Option (Json × List Char) :=
  match Json.skipSpace text with
  | '\x7b' :: rest => do
    let (root, rest) ← rootFields? rest.length none rest
    return (← root, rest)
  | '[' :: rest => do
    let (root, rest) ← Json.readValue (nestingLimit - 1) rest
    match Json.skipSpace rest with
    | ']' :: rest => some (root, rest)
    | _ => none
  | _ => none

/-- The tree in a saved text.  Its root has to be a directory. -/
def ofBlob? (text : String) : Option Node := do
  let (root, rest) ← rootValue? text.toList
  let node ← ofJson? false root
  if (Json.skipSpace rest).isEmpty && node.isDirectory then return node else none

end Node

end VirtualShell
