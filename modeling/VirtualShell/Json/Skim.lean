import VirtualShell.Json.Reader

/-! # Skipping values

Passing over a value that nobody wants.  Only its shape is checked: it may be nested to any depth, its
numbers may be of any size, and a surrogate in it may stand alone.
-/

namespace VirtualShell.Json

/-- The text after the inside of a string and its closing quote. -/
def skipString : List Char → Option (List Char)
  | [] => none
  | '"' :: rest => some rest
  | '\\' :: 'u' :: a :: b :: c :: d :: rest =>
    match hexQuad? a b c d with
    | none => none
    | some _ => skipString rest
  | '\\' :: c :: rest =>
    match shortEscape? c with
    | none => none
    | some _ => skipString rest
  | c :: rest => if c.toNat < 0x20 then none else skipString rest

def skipScalar : List Char → Option (List Char)
  | 'n' :: 'u' :: 'l' :: 'l' :: rest => some rest
  | 't' :: 'r' :: 'u' :: 'e' :: rest => some rest
  | 'f' :: 'a' :: 'l' :: 's' :: 'e' :: rest => some rest
  | '"' :: rest => skipString rest
  | text => (readNumeral text).map (·.2)

/-- What is open around a position in a value. -/
inductive Bracket
  | array
  | object
deriving DecidableEq, Repr

def skipName (text : List Char) : Option (List Char) :=
  match skipSpace text with
  | '"' :: rest => do
    let rest ← skipString rest
    match skipSpace rest with
    | ':' :: rest => some rest
    | _ => none
  | _ => none

/-- Passes the closing brackets after a value; without an open bracket the value is complete.  The
result is the text at the next value, with what is open there. -/
def closeBrackets : List Bracket → List Char → Option (List Bracket × List Char)
  | [], text => some ([], text)
  | inner :: outer, text =>
    match inner, skipSpace text with
    | .array, ',' :: rest => some (inner :: outer, rest)
    | .array, ']' :: rest => closeBrackets outer rest
    | .object, ',' :: rest => (skipName rest).map (inner :: outer, ·)
    | .object, '\x7d' :: rest => closeBrackets outer rest
    | _, _ => none

/-- Passes over values until nothing is open any more. -/
def skimLoop : Nat → List Bracket → List Char → Option (List Char)
  | 0, _, _ => none
  | fuel + 1, opened, text => do
    let (opened, text) ← match skipSpace text with
      | '[' :: rest =>
        match skipSpace rest with
        | ']' :: rest => closeBrackets opened rest
        | _ => some (.array :: opened, rest)
      | '\x7b' :: rest =>
        match skipSpace rest with
        | '\x7d' :: rest => closeBrackets opened rest
        | _ => (skipName rest).map (.object :: opened, ·)
      | other => (skipScalar other).bind (closeBrackets opened)
    if opened.isEmpty then some text else skimLoop fuel opened text

/-- The text after one value of any shape. -/
def skim (text : List Char) : Option (List Char) := skimLoop text.length [] text

end VirtualShell.Json
