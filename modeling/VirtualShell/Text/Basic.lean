/-! # Characters and counts

Classes of characters as tables of code point ranges, the characters that separate words, and decimal
numbers below `2 ^ 64`, as options and operands spell them.
-/

namespace VirtualShell.Text

/-- The character lies in one of the inclusive ranges. -/
def within (ranges : List (Nat × Nat)) (c : Char) : Bool :=
  ranges.any fun (first, last) => first ≤ c.toNat && c.toNat ≤ last

/-- Code point ranges with the property White_Space. -/
def blanks : List (Nat × Nat) := [
  (0x9, 0xD), (0x20, 0x20), (0x85, 0x85), (0xA0, 0xA0), (0x1680, 0x1680), (0x2000, 0x200A),
  (0x2028, 0x2029), (0x202F, 0x202F), (0x205F, 0x205F), (0x3000, 0x3000)]

/-- A character with the property White_Space. -/
def isBlank (c : Char) : Bool := within blanks c

def trimLeft (text : List Char) : List Char := text.dropWhile isBlank

def trimRight (text : List Char) : List Char := (text.reverse.dropWhile isBlank).reverse

def trim (text : List Char) : List Char := trimRight (trimLeft text)

theorem length_trim_le (text : List Char) : (trim text).length ≤ text.length := by
  have hleft : (trimLeft text).length ≤ text.length := (List.dropWhile_suffix isBlank).length_le
  have hright : (trimRight (trimLeft text)).length ≤ (trimLeft text).length := by
    have hle := (List.dropWhile_suffix isBlank (l := (trimLeft text).reverse)).length_le
    simpa [trimRight] using hle
  exact Nat.le_trans hright hleft

/-- The first number that is too large for a count. -/
def countLimit : Nat := 0x10000000000000000

/-- The value of a run of ASCII digits, or nothing when another character occurs. -/
def digitsValue? (digits : List Char) : Option Nat :=
  if digits.all Char.isDigit then
    some (digits.foldl (fun value c => 10 * value + (c.toNat - '0'.toNat)) 0)
  else none

/-- Reads a count: an optional plus sign, then one or more ASCII digits, below the limit. -/
def count? (text : List Char) : Option Nat :=
  let digits := match text with
    | '+' :: rest => rest
    | _ => text
  if digits.isEmpty then none else (digitsValue? digits).filter (· < countLimit)

end VirtualShell.Text
