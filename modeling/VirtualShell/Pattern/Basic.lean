import VirtualShell.Pattern.CharSet

/-! # Regular expressions

The expressions that a pattern stands for.  Only whether a text holds a match is ever asked, so an
expression does not record which of several matches is preferred.
-/

namespace VirtualShell

inductive Look
  | textStart
  | textEnd
  | lineStart
  | lineEnd
  /-- The start of a line that ends at a line feed, a carriage return or both. -/
  | anyLineStart
  | anyLineEnd
  | wordBoundary
  | notWordBoundary
  | wordStart
  | wordEnd
  /-- No word character stands before. -/
  | wordStartHalf
  /-- No word character stands after. -/
  | wordEndHalf
deriving DecidableEq, Repr

/-- A regular expression over characters. -/
inductive Pattern
  | empty
  | char (c : Char)
  | oneOf (set : CharSet)
  | look (condition : Look)
  /-- The body at least `least` times and, if `most` is given, at most that often. -/
  | repeated (least : Nat) (most : Option Nat) (body : Pattern)
  /-- A group, with its place among all groups in the order in which they open, from one on. -/
  | group (index : Nat) (name : Option String) (body : Pattern)
  | sequence (parts : List Pattern)
  | choice (branches : List Pattern)
deriving Inhabited

namespace Pattern

/-- One expression after the other; a single one stands for itself. -/
def ofSequence : List Pattern → Pattern
  | [] => empty
  | [part] => part
  | parts => sequence parts

def ofChoice : List Pattern → Pattern
  | [branch] => branch
  | branches => choice branches

/-- A repetition; none at all is the empty expression and exactly one is the body itself. -/
def ofRepeated (least : Nat) (most : Option Nat) (body : Pattern) : Pattern :=
  if most = some 0 then empty
  else if least = 1 ∧ most = some 1 then body
  else repeated least most body

/-- A character, and its other case when letters match in both cases. -/
def ofChar (ignoreCase : Bool) (c : Char) : Pattern :=
  if ignoreCase then
    match CharSet.foldRange (CharSet.span c c) with
    | some other => oneOf (CharSet.ofRanges [CharSet.span c c, other])
    | none => char c
  else char c

def anyButLineFeed : Pattern := oneOf (CharSet.complement ⟨[(0x0A, 0x0A)]⟩)

end Pattern

end VirtualShell
