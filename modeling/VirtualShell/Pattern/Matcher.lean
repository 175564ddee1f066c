import VirtualShell.Pattern.Basic

/-! # Searching a text

A set of positions in a text has one entry for each position: the one before the first character, and
the one after each character.  An expression takes the set of positions where a match may begin to
the set of positions where it may end.
-/

namespace VirtualShell.Pattern

/-- A set of positions in a text, one entry for each. -/
abbrev Positions := List Bool

def everywhere (text : List Char) : Positions := List.replicate (text.length + 1) true

def nowhere (text : List Char) : Positions := List.replicate (text.length + 1) false

def either (first second : Positions) : Positions := List.zipWith (· || ·) first second

/-- The positions of the first set that the second lacks. -/
def without (first second : Positions) : Positions :=
  List.zipWith (fun here there => here && !there) first second

/-- The positions after a character with a property that stands at one of the given positions. -/
def past (property : Char → Bool) (text : List Char) (starts : Positions) : Positions :=
  false :: List.zipWith (fun start c => start && property c) starts text

def isWordChar (c : Char) : Bool := CharSet.word.contains c

/-- The condition holds between the characters on the two sides of a position; there is none at an
end of the text. -/
def holds (left right : Option Char) : Look → Bool
  | .textStart => left.isNone
  | .textEnd => right.isNone
  | .lineStart => left.isNone || left = some '\n'
  | .lineEnd => right.isNone || right = some '\n'
  | .anyLineStart => left.isNone || left = some '\n' || (left = some '\r' && right ≠ some '\n')
  | .anyLineEnd => right.isNone || right = some '\r' || (right = some '\n' && left ≠ some '\r')
  | .wordBoundary => left.any isWordChar != right.any isWordChar
  | .notWordBoundary => left.any isWordChar == right.any isWordChar
  | .wordStart => !left.any isWordChar && right.any isWordChar
  | .wordEnd => left.any isWordChar && !right.any isWordChar
  | .wordStartHalf => !left.any isWordChar
  | .wordEndHalf => !right.any isWordChar

/-- The positions of a text where a condition holds, given the character to its left. -/
def holding (condition : Look) : (left : Option Char) → List Char → Positions
  | left, [] => [holds left none condition]
  | left, c :: rest => holds left (some c) condition :: holding condition (some c) rest

/-- Takes a number of steps, or fewer when a step changes nothing any more. -/
def exactly (step : Positions → Positions) : Nat → Positions → Positions
  | 0, positions => positions
  | count + 1, positions =>
    let next := step positions
    if next == positions then positions else exactly step count next

/-- The positions that repeated steps reach. -/
structure Reach where
  /-- Those that any number of steps reaches, none among them. -/
  within : Positions
  /-- Those that at least one step reaches. -/
  beyond : Positions

/-- Adds what at most a number of steps reaches from the positions that were reached last.  A further
step begins only at positions that are new, so no position is the start of a step twice. -/
def spread (step : Positions → Positions) : Nat → (last : Positions) → Reach → Reach
  | 0, _, reach => reach
  | count + 1, last, reach =>
    let next := step last
    let fresh := without next reach.within
    let reach := ⟨either reach.within next, either reach.beyond next⟩
    if fresh.contains true then spread step count fresh reach else reach

/-- What at most a number of steps reaches. -/
def reachOf (step : Positions → Positions) (count : Nat) (starts : Positions) : Reach :=
  spread step count starts ⟨starts, starts.map fun _ => false⟩

/-- The positions after characters in a row that all have a property; no character at all is a row too.
A row that began earlier leads up to the first position if `here` holds. -/
def sweep (property : Char → Bool) : (here : Bool) → List Char → Positions → Positions
  | _, _, [] => []
  | here, [], start :: _ => [here || start]
  | here, c :: rest, start :: starts =>
    let here := here || start
    here :: sweep property (here && property c) rest starts

mutual
/-- The property of a character that the expression states, if it matches single characters only. -/
def property? : Pattern → Option (Char → Bool)
  | char c => some (· = c)
  | oneOf set => some set.contains
  | group _ _ body => property? body
  | choice branches => anyProperty? branches
  | _ => none

def anyProperty? : List Pattern → Option (Char → Bool)
  | [] => some fun _ => false
  | branch :: rest => do
    let first ← property? branch
    let second ← anyProperty? rest
    return fun c => first c || second c
end

mutual
/-- The positions where a match ends that begins at one of the given positions. -/
def ends (text : List Char) : Pattern → Positions → Positions
  | empty, starts => starts
  | char c, starts => past (· = c) text starts
  | oneOf set, starts => past set.contains text starts
  | look condition, starts => List.zipWith (· && ·) starts (holding condition none text)
  | repeated least most body, starts =>
    let step := ends text body
    match most, property? body, least with
    | some most, _, least => (reachOf step (most - least) (exactly step least starts)).within
    | none, some property, least => sweep property false text (exactly step least starts)
    | none, none, 0 => (reachOf step (text.length + 1) starts).within
    | none, none, least + 1 => (reachOf step (text.length + 1) (exactly step least starts)).beyond
  | group _ _ body, starts => ends text body starts
  | sequence parts, starts => endsOfSequence text parts starts
  | choice branches, starts => endsOfChoice text branches starts

def endsOfSequence (text : List Char) : List Pattern → Positions → Positions
  | [], starts => starts
  | part :: rest, starts => endsOfSequence text rest (ends text part starts)

def endsOfChoice (text : List Char) : List Pattern → Positions → Positions
  | [], _ => nowhere text
  | branch :: rest, starts => either (ends text branch starts) (endsOfChoice text rest starts)
end

def occursIn (pattern : Pattern) (text : String) : Bool :=
  (ends text.toList pattern (everywhere text.toList)).contains true

end VirtualShell.Pattern
