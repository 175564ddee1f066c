import VirtualShell.Json.Value

/-! # Writing values

The compact form of a value: no blanks, and escapes only where they are required.
-/

namespace VirtualShell.Json

/-- The hexadecimal digit of a number below sixteen, in lower case. -/
def hexDigit (n : Nat) : Char := Nat.digitChar n

/-- How one character stands inside a written string. -/
def escapeChar (c : Char) : List Char :=
  if c = '"' then ['\\', '"']
  else if c = '\\' then ['\\', '\\']
  else if c = '\x08' then ['\\', 'b']
  else if c = '\x0c' then ['\\', 'f']
  else if c = '\n' then ['\\', 'n']
  else if c = '\r' then ['\\', 'r']
  else if c = '\t' then ['\\', 't']
  else if c.toNat < 0x20 then ['\\', 'u', '0', '0', hexDigit (c.toNat / 16), hexDigit (c.toNat % 16)]
  else [c]

def quote (text rest : List Char) : List Char :=
  '"' :: text.foldr (fun c later => escapeChar c ++ later) ('"' :: rest)

/-- A number with the digits that it holds. -/
def Number.digits (n : Number) : List Char :=
  (if n.negative then ['-'] else []) ++ Nat.toDigits 10 n.significand ++
    (if n.whole then [] else 'e' :: (toString n.exponent).toList)

mutual
/-- The compact form of a value in front of what follows. -/
def write : Json → List Char → List Char
  | .null, rest => 'n' :: 'u' :: 'l' :: 'l' :: rest
  | .bool true, rest => 't' :: 'r' :: 'u' :: 'e' :: rest
  | .bool false, rest => 'f' :: 'a' :: 'l' :: 's' :: 'e' :: rest
  | .number n, rest => n.digits ++ rest
  | .string text, rest => quote text.toList rest
  | .array items, rest => '[' :: writeItems items (']' :: rest)
  | .object fields, rest => '\x7b' :: writeFields fields ('\x7d' :: rest)

def writeItems : List Json → List Char → List Char
  | [], rest => rest
  | [item], rest => write item rest
  | item :: items, rest => write item (',' :: writeItems items rest)

def writeFields : List (String × Json) → List Char → List Char
  | [], rest => rest
  | [(name, value)], rest => quote name.toList (':' :: write value rest)
  | (name, value) :: fields, rest =>
    quote name.toList (':' :: write value (',' :: writeFields fields rest))
end

/-- The compact form of a value as a string. -/
def render (value : Json) : String := String.ofList (value.write [])

end VirtualShell.Json
