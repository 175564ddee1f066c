/-! # The text of settings

Readers for the parts of a settings file: blanks, comments, names and quoted texts.  Each takes the
text that is left and returns what it read with the rest; without a result the text is refused.
-/

namespace VirtualShell.Settings

abbrev Reader (α : Type) := List Char → Option (α × List Char)

def isBlank (c : Char) : Bool := c = ' ' || c = '\t'

def skipBlanks (text : List Char) : List Char := text.dropWhile isBlank

/-- A character that may stand in comments and quoted texts as it is. -/
def isPlain (c : Char) : Bool := c = '\t' || (0x20 ≤ c.toNat && c.toNat ≠ 0x7F)

/-- The text after the end of a line, if a line ends here. -/
def lineEnd? : List Char → Option (List Char)
  | '\n' :: rest => some rest
  | '\r' :: '\n' :: rest => some rest
  | _ => none

/-- The text after a comment, if there is one. -/
def skipComment : List Char → List Char
  | '#' :: rest => rest.dropWhile isPlain
  | text => text

/-- The text after the end of a line, with blanks and a comment before it.  The last line needs no
end. -/
def finishLine (text : List Char) : Option (List Char) :=
  match skipComment (skipBlanks text) with
  | [] => some []
  | rest => lineEnd? rest

def hexValue? (c : Char) : Option Nat :=
  if c.isDigit then some (c.toNat - '0'.toNat)
  else if 'a' ≤ c ∧ c ≤ 'f' then some (c.toNat - 'a'.toNat + 10)
  else if 'A' ≤ c ∧ c ≤ 'F' then some (c.toNat - 'A'.toNat + 10)
  else none

/-- The character whose code the hexadecimal digits give. -/
def codeChar? (digits : List Char) : Option Char := do
  let values ← digits.mapM hexValue?
  let code := values.foldl (fun code d => 16 * code + d) 0
  if code < 0xD800 ∨ (0xDFFF < code ∧ code < 0x110000) then return Char.ofNat code else none

/-- The character that a letter stands for after a backslash. -/
def shortEscape? : Char → Option Char
  | 'b' => some '\x08'
  | 't' => some '\t'
  | 'n' => some '\n'
  | 'f' => some '\x0c'
  | 'r' => some '\r'
  | '"' => some '"'
  | '\\' => some '\\'
  | _ => none

/-- The character that an escape stands for, read after its backslash. -/
def escape : Reader Char
  | 'u' :: a :: b :: c :: d :: rest => (codeChar? [a, b, c, d]).map (·, rest)
  | 'U' :: a :: b :: c :: d :: e :: f :: g :: h :: rest =>
    (codeChar? [a, b, c, d, e, f, g, h]).map (·, rest)
  | c :: rest => (shortEscape? c).map (·, rest)
  | [] => none

/-- The rest of a text in double quotes on one line, after the characters `done`, which are given
backwards. -/
def basicRest : Nat → List Char → Reader (List Char)
  | 0, _, _ => none
  | _ + 1, done, '"' :: rest => some (done.reverse, rest)
  | fuel + 1, done, '\\' :: rest => do
    let (c, rest) ← escape rest
    basicRest fuel (c :: done) rest
  | fuel + 1, done, c :: rest => if isPlain c then basicRest fuel (c :: done) rest else none
  | _ + 1, _, [] => none

/-- The rest of a text in single quotes on one line; nothing in it is escaped. -/
def literalRest (done : List Char) : Reader (List Char)
  | '\'' :: rest => some (done.reverse, rest)
  | c :: rest => if isPlain c then literalRest (c :: done) rest else none
  | [] => none

/-- The text after blanks and ends of lines. -/
def skipLines : Nat → List Char → List Char
  | 0, text => text
  | fuel + 1, text =>
    match lineEnd? (skipBlanks text) with
    | some rest => skipLines fuel rest
    | none => skipBlanks text

/-- Reads a run of quotes inside a text between triple quotes: fewer than three belong to the text,
and with three or more the text ends, with up to two that belong to it before its end. -/
def quoteRun (quote : Char) (text : List Char) : Option (Nat × Bool × List Char) :=
  let count := (text.takeWhile (· = quote)).length
  let rest := text.drop count
  if count < 3 then some (count, false, rest)
  else if count < 6 then some (count - 3, true, rest)
  else none

/-- The rest of a text between triple quotes.  With `escapes`, a backslash begins an escape, or joins
its line to the next character that is not blank. -/
def longRest (quote : Char) (escapes : Bool) : Nat → List Char → Reader (List Char)
  | 0, _, _ => none
  | fuel + 1, done, text =>
    match text with
    | [] => none
    | c :: rest =>
      if c = quote then do
        let (count, ends, rest) ← quoteRun quote text
        let done := List.replicate count quote ++ done
        if ends then return (done.reverse, rest) else longRest quote escapes fuel done rest
      else if escapes && c = '\\' then
        match lineEnd? (skipBlanks rest) with
        | some next => longRest quote escapes fuel done (skipLines next.length next)
        | none => do
          let (c, rest) ← escape rest
          longRest quote escapes fuel (c :: done) rest
      else match lineEnd? text with
        | some rest => longRest quote escapes fuel ('\n' :: done) rest
        | none => if isPlain c then longRest quote escapes fuel (c :: done) rest else none

/-- The text after an end of line right behind an opening triple quote. -/
def skipFirstEnd (text : List Char) : List Char := (lineEnd? text).getD text

/-- A quoted text in any of the four forms. -/
def quoted (text : List Char) : Option (String × List Char) :=
  let result := match text with
    | '"' :: '"' :: '"' :: rest => longRest '"' true text.length [] (skipFirstEnd rest)
    | '\'' :: '\'' :: '\'' :: rest => longRest '\'' false text.length [] (skipFirstEnd rest)
    | '"' :: rest => basicRest text.length [] rest
    | '\'' :: rest => literalRest [] rest
    | _ => none
  result.map fun (done, rest) => (String.ofList done, rest)

/-- A character of a name without quotes. -/
def isNameChar (c : Char) : Bool := c.isAlphanum || c = '_' || c = '-'

/-- One part of a name, with or without quotes. -/
def namePart (text : List Char) : Option (String × List Char) :=
  let result := match text with
    | '"' :: rest => basicRest text.length [] rest
    | '\'' :: rest => literalRest [] rest
    | _ =>
      let name := text.takeWhile isNameChar
      if name.isEmpty then none else some (name, text.drop name.length)
  result.map fun (name, rest) => (String.ofList name, rest)

/-- The parts of a name with points between them, after the parts `done`, which are given backwards. -/
def nameParts : Nat → List String → Reader (List String)
  | 0, _, _ => none
  | fuel + 1, done, text => do
    let (part, rest) ← namePart (skipBlanks text)
    match skipBlanks rest with
    | '.' :: rest => nameParts fuel (part :: done) rest
    | rest => return ((part :: done).reverse, rest)

/-- A name with the equals sign after it. -/
def assigned (text : List Char) : Option (List String × List Char) := do
  let (name, rest) ← nameParts text.length [] text
  match rest with
  | '=' :: rest => return (name, skipBlanks rest)
  | _ => none

end VirtualShell.Settings
