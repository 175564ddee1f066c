import VirtualShell.Json.Value

/-! # Reading values

A strict reader of JSON text with a limit on the nesting of arrays and objects.  Each reader takes
the text that is left and returns what it read with the rest; without a result the text is refused.
-/

namespace VirtualShell.Json

abbrev Reader (α : Type) := List Char → Option (α × List Char)

/-- The characters that may stand between the parts of a value. -/
def isSpace (c : Char) : Bool := c = ' ' || c = '\n' || c = '\t' || c = '\r'

def skipSpace (text : List Char) : List Char := text.dropWhile isSpace

def hexValue? (c : Char) : Option Nat :=
  if c.isDigit then some (c.toNat - '0'.toNat)
  else if 'a' ≤ c ∧ c ≤ 'f' then some (c.toNat - 'a'.toNat + 10)
  else if 'A' ≤ c ∧ c ≤ 'F' then some (c.toNat - 'A'.toNat + 10)
  else none

/-- The value of four hexadecimal digits. -/
def hexQuad? (a b c d : Char) : Option Nat := do
  let a ← hexValue? a
  let b ← hexValue? b
  let c ← hexValue? c
  let d ← hexValue? d
  return ((a * 16 + b) * 16 + c) * 16 + d

/-- The character that a short escape stands for. -/
def shortEscape? : Char → Option Char
  | '"' => some '"'
  | '\\' => some '\\'
  | '/' => some '/'
  | 'b' => some '\x08'
  | 'f' => some '\x0c'
  | 'n' => some '\n'
  | 'r' => some '\r'
  | 't' => some '\t'
  | _ => none

/-- The first half of a pair of surrogates. -/
def isLeading (unit : Nat) : Bool := 0xD800 ≤ unit && unit < 0xDC00

/-- The second half of a pair of surrogates. -/
def isTrailing (unit : Nat) : Bool := 0xDC00 ≤ unit && unit < 0xE000

/-- The character that a pair of surrogates stands for. -/
def joinPair (leading trailing : Nat) : Char :=
  Char.ofNat (0x10000 + (leading - 0xD800) * 0x400 + (trailing - 0xDC00))

/-- Reads the inside of a string up to the closing quote, after the characters `done`, which are
given backwards.  Control characters and surrogates without a partner are refused. -/
def stringRest (done : List Char) : Reader (List Char)
  | [] => none
  | '"' :: rest => some (done.reverse, rest)
  | '\\' :: 'u' :: a :: b :: c :: d :: rest =>
    match hexQuad? a b c d with
    | none => none
    | some unit =>
      if isTrailing unit then none
      else if isLeading unit then
        match rest with
        | '\\' :: 'u' :: e :: f :: g :: h :: rest =>
          match hexQuad? e f g h with
          | none => none
          | some next =>
            if isTrailing next then stringRest (joinPair unit next :: done) rest else none
        | _ => none
      else stringRest (Char.ofNat unit :: done) rest
  | '\\' :: c :: rest =>
    match shortEscape? c with
    | none => none
    | some plain => stringRest (plain :: done) rest
  | c :: rest => if c.toNat < 0x20 then none else stringRest (c :: done) rest

def readString : Reader String
  | '"' :: rest => (stringRest [] rest).map fun (text, rest) => (String.ofList text, rest)
  | _ => none

/-- Splits a text after its leading digits. -/
def digits (text : List Char) : List Char × List Char := text.span Char.isDigit

/-- Reads the digits before a point: a zero alone, or digits that do not begin with one. -/
def readWhole : Reader (List Char)
  | '0' :: rest =>
    match rest with
    | [] => some (['0'], [])
    | c :: _ => if c.isDigit then none else some (['0'], rest)
  | text =>
    match digits text with
    | ([], _) => none
    | (run, rest) => some (run, rest)

/-- Reads a point with digits after it, if there is a point. -/
def readFraction : Reader (Option (List Char))
  | '.' :: rest =>
    match digits rest with
    | ([], _) => none
    | (run, rest) => some (some run, rest)
  | text => some (none, text)

def readExponent : Reader (Option Int)
  | e :: rest =>
    if e = 'e' ∨ e = 'E' then
      let (sign, rest) : Int × List Char := match rest with
        | '+' :: rest => (1, rest)
        | '-' :: rest => (-1, rest)
        | _ => (1, rest)
      match digits rest with
      | ([], _) => none
      | (run, rest) => some (some (sign * digitsNat run), rest)
    else some (none, e :: rest)
  | [] => some (none, [])

/-- Reads a number without looking at its size. -/
def readNumeral (text : List Char) : Option (Numeral × List Char) := do
  let (negative, text) := match text with
    | '-' :: rest => (true, rest)
    | _ => (false, text)
  let (before, text) ← readWhole text
  let (after, text) ← readFraction text
  let (power, text) ← readExponent text
  return (⟨negative, before, after, power⟩, text)

/-- Reads a number that is not out of range. -/
def readNumber (text : List Char) : Option (Number × List Char) := do
  let (numeral, rest) ← readNumeral text
  if numeral.scaled.overflows then none else return (numeral.number, rest)

/-- Reads a value that is neither an array nor an object. -/
def readScalar : Reader Json
  | 'n' :: 'u' :: 'l' :: 'l' :: rest => some (.null, rest)
  | 't' :: 'r' :: 'u' :: 'e' :: rest => some (.bool true, rest)
  | 'f' :: 'a' :: 'l' :: 's' :: 'e' :: rest => some (.bool false, rest)
  | '"' :: rest => (readString ('"' :: rest)).map fun (text, rest) => (.string text, rest)
  | text => (readNumber text).map fun (n, rest) => (.number n, rest)

/-- Reads items up to the closing bracket, after the items `done`, which are given backwards. -/
def readItems (value : Reader Json) : Nat → List Json → Reader (List Json)
  | 0, _, _ => none
  | fuel + 1, done, text => do
    let (item, text) ← value text
    match skipSpace text with
    | ',' :: rest => readItems value fuel (item :: done) rest
    | ']' :: rest => some ((item :: done).reverse, rest)
    | _ => none

def readName (text : List Char) : Option (String × List Char) := do
  let (name, text) ← readString (skipSpace text)
  match skipSpace text with
  | ':' :: rest => return (name, rest)
  | _ => none

/-- Reads fields up to the closing brace, after the fields `done`, which are given backwards. -/
def readFields (value : Reader Json) : Nat → List (String × Json) → Reader (List (String × Json))
  | 0, _, _ => none
  | fuel + 1, done, text => do
    let (name, text) ← readName text
    let (item, text) ← value text
    match skipSpace text with
    | ',' :: rest => readFields value fuel ((name, item) :: done) rest
    | '\x7d' :: rest => some (((name, item) :: done).reverse, rest)
    | _ => none

/-- Reads a value whose arrays and objects are nested at most `depth` deep. -/
def readValue : (depth : Nat) → Reader Json
  | 0, text => readScalar (skipSpace text)
  | depth + 1, text =>
    match skipSpace text with
    | '[' :: rest =>
      match skipSpace rest with
      | ']' :: rest => some (.array [], rest)
      | rest => (readItems (readValue depth) rest.length [] rest).map fun (list, rest) => (.array list, rest)
    | '\x7b' :: rest =>
      match skipSpace rest with
      | '\x7d' :: rest => some (.object [], rest)
      | rest => (readFields (readValue depth) rest.length [] rest).map fun (list, rest) => (.object list, rest)
    | other => readScalar other

def parse? (depth : Nat) (text : List Char) : Option Json := do
  let (result, rest) ← readValue depth text
  if (skipSpace rest).isEmpty then return result else none

end VirtualShell.Json
