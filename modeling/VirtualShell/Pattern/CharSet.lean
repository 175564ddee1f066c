/-! # Character sets

Sets of characters as sorted ranges of code points that neither overlap nor touch.
-/

namespace VirtualShell

/-- A set of characters, as inclusive ranges of code points. -/
structure CharSet where
  ranges : List (Nat × Nat)
deriving DecidableEq, Repr, Inhabited

namespace CharSet

def lastCode : Nat := 0x10FFFF

/-- The character after a given one; surrogates are no characters. -/
def nextCode (code : Nat) : Nat := if code = 0xD7FF then 0xE000 else code + 1

/-- The character before a given one; surrogates are no characters. -/
def previousCode (code : Nat) : Nat := if code = 0xE000 then 0xD7FF else code - 1

/-- The order of ranges: by first code point, then by last. -/
def rangeLe (a b : Nat × Nat) : Bool := a.1 < b.1 || (a.1 == b.1 && a.2 ≤ b.2)

/-- Joins to a first range the later ones that overlap or touch it; the list is sorted. -/
def mergeFrom (range : Nat × Nat) : List (Nat × Nat) → List (Nat × Nat)
  | [] => [range]
  | next :: rest =>
    if next.1 ≤ range.2 + 1 then mergeFrom (range.1, max range.2 next.2) rest
    else range :: mergeFrom next rest

/-- Joins the ranges of a sorted list that overlap or touch. -/
def merge : List (Nat × Nat) → List (Nat × Nat)
  | [] => []
  | range :: rest => mergeFrom range rest

/-- The set of all characters in the ranges. -/
def ofRanges (ranges : List (Nat × Nat)) : CharSet := ⟨merge (ranges.mergeSort rangeLe)⟩

/-- The gaps after a code point that belongs to the set. -/
def gapsAfter (last : Nat) : List (Nat × Nat) → List (Nat × Nat)
  | [] => if last < lastCode then [(nextCode last, lastCode)] else []
  | (first, next) :: rest => (nextCode last, previousCode first) :: gapsAfter next rest

def complement (set : CharSet) : CharSet :=
  match set.ranges with
  | [] => ⟨[(0, lastCode)]⟩
  | (first, last) :: rest =>
    ⟨(if 0 < first then [(0, previousCode first)] else []) ++ gapsAfter last rest⟩

/-- The other-case partners of the letters in a range.  Where the range meets the small letters, only
those are given partners. -/
def foldRange (range : Nat × Nat) : Option (Nat × Nat) :=
  let small := (max range.1 'a'.toNat, min range.2 'z'.toNat)
  let capital := (max range.1 'A'.toNat, min range.2 'Z'.toNat)
  if small.1 ≤ small.2 then some (small.1 - 32, small.2 - 32)
  else if capital.1 ≤ capital.2 then some (capital.1 + 32, capital.2 + 32)
  else none

/-- The set together with the other-case partners of its ASCII letters. -/
def foldCase (set : CharSet) : CharSet := ofRanges (set.ranges ++ set.ranges.filterMap foldRange)

def contains (set : CharSet) (c : Char) : Bool :=
  set.ranges.any fun (first, last) => first ≤ c.toNat && c.toNat ≤ last

def span (first last : Char) : Nat × Nat := (first.toNat, last.toNat)

def digit : CharSet := ⟨[span '0' '9']⟩

def space : CharSet := ⟨[(0x09, 0x0D), (0x20, 0x20)]⟩

def word : CharSet := ⟨[span '0' '9', span 'A' 'Z', span '_' '_', span 'a' 'z']⟩

/-- The sets that have a name between brackets and colons. -/
def named? : List Char → Option CharSet
  | ['a', 'l', 'n', 'u', 'm'] => some ⟨[span '0' '9', span 'A' 'Z', span 'a' 'z']⟩
  | ['a', 'l', 'p', 'h', 'a'] => some ⟨[span 'A' 'Z', span 'a' 'z']⟩
  | ['a', 's', 'c', 'i', 'i'] => some ⟨[(0x00, 0x7F)]⟩
  | ['b', 'l', 'a', 'n', 'k'] => some ⟨[(0x09, 0x09), (0x20, 0x20)]⟩
  | ['c', 'n', 't', 'r', 'l'] => some ⟨[(0x00, 0x1F), (0x7F, 0x7F)]⟩
  | ['d', 'i', 'g', 'i', 't'] => some digit
  | ['g', 'r', 'a', 'p', 'h'] => some ⟨[(0x21, 0x7E)]⟩
  | ['l', 'o', 'w', 'e', 'r'] => some ⟨[span 'a' 'z']⟩
  | ['p', 'r', 'i', 'n', 't'] => some ⟨[(0x20, 0x7E)]⟩
  | ['p', 'u', 'n', 'c', 't'] => some ⟨[(0x21, 0x2F), (0x3A, 0x40), (0x5B, 0x60), (0x7B, 0x7E)]⟩
  | ['s', 'p', 'a', 'c', 'e'] => some space
  | ['u', 'p', 'p', 'e', 'r'] => some ⟨[span 'A' 'Z']⟩
  | ['w', 'o', 'r', 'd'] => some word
  | ['x', 'd', 'i', 'g', 'i', 't'] => some ⟨[span '0' '9', span 'A' 'F', span 'a' 'f']⟩
  | _ => none

end CharSet

end VirtualShell
