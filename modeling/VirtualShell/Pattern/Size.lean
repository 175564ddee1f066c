import VirtualShell.Pattern.Basic
import VirtualShell.Pattern.Error
import VirtualShell.Pattern.Parser

/-! # The size of an expression

An expression is refused when its parts are nested too deeply, or when the automaton for it would not
fit into a fixed number of bytes.  The bytes are counted without building the automaton: each state
takes a fixed amount, a branching state some more for each of its targets, and a set for each of its
ranges.  Each group up to the last one takes a fixed amount, and a named group some more for its name.
-/

namespace VirtualShell.Pattern

mutual
/-- The parts of the expression are nested at most `depth` deep. -/
def fits (depth : Nat) : Pattern → Bool
  | empty => true
  | char _ => true
  | oneOf _ => true
  | look _ => true
  | repeated _ _ body => match depth with
    | 0 => false
    | depth + 1 => fits depth body
  | group _ _ body => match depth with
    | 0 => false
    | depth + 1 => fits depth body
  | sequence parts => fitsAll depth parts
  | choice branches => fitsAll depth branches

/-- There is no part, or there is room for one more level and each part fits below it. -/
def fitsAll (depth : Nat) : List Pattern → Bool
  | [] => true
  | part :: rest => (match depth with
    | 0 => false
    | depth + 1 => fits depth part) && fitsAll depth rest
end

mutual
/-- The expression matches the empty text somewhere. -/
def matchesEmpty : Pattern → Bool
  | empty => true
  | char _ => false
  | oneOf _ => false
  | look _ => true
  | repeated least _ body => least == 0 || matchesEmpty body
  | group _ _ body => matchesEmpty body
  | sequence parts => allMatchEmpty parts
  | choice branches => anyMatchesEmpty branches

def allMatchEmpty : List Pattern → Bool
  | [] => true
  | part :: rest => matchesEmpty part && allMatchEmpty rest

def anyMatchesEmpty : List Pattern → Bool
  | [] => false
  | part :: rest => matchesEmpty part || anyMatchesEmpty rest
end

def stateSize : Nat := 32

/-- Bytes of one target of a branching state. -/
def targetSize : Nat := 4

def rangeSize : Nat := 8

def groupSize : Nat := 16

/-- Bytes that the name of a group takes besides. -/
def nameSize (name : String) : Nat := 4 + name.utf8ByteSize

/-- Bytes of a branching state with two targets. -/
def forkSize : Nat := stateSize + 2 * targetSize

/-- Bytes for copies of an expression in a row; no copy at all takes an empty state. -/
def copiesSize (count size : Nat) : Nat := if count = 0 then stateSize else count * size

mutual
/-- Bytes of the states of an expression. -/
def statesSize : Pattern → Nat
  | empty => stateSize
  | char _ => stateSize
  | oneOf set => stateSize + rangeSize * set.ranges.length
  | look _ => stateSize
  | repeated least most body =>
    let size := statesSize body
    match most with
    | none =>
      if least = 0 then
        if matchesEmpty body then size + 2 * forkSize + stateSize else size + forkSize
      else copiesSize least size + forkSize
    | some most =>
      if least = most then copiesSize least size
      else if least = 0 ∧ most = 1 then forkSize + size + stateSize
      else copiesSize least size + stateSize + (most - least) * (forkSize + size)
  | group _ _ body => 2 * stateSize + statesSize body
  | sequence parts => partsSize parts
  | choice branches => choiceSize branches

def partsSize : List Pattern → Nat
  | [] => 0
  | part :: rest => statesSize part + partsSize rest

def choiceSize : List Pattern → Nat
  | [] => 2 * stateSize
  | branch :: rest => targetSize + statesSize branch + choiceSize rest
end

mutual
/-- The last group of an expression, by its place among all groups; zero if there is none. -/
def lastGroup : Pattern → Nat
  | group index _ body => max index (lastGroup body)
  | repeated _ _ body => lastGroup body
  | sequence parts => lastGroupOf parts
  | choice branches => lastGroupOf branches
  | _ => 0

def lastGroupOf : List Pattern → Nat
  | [] => 0
  | part :: rest => max (lastGroup part) (lastGroupOf rest)
end

mutual
/-- Bytes for the names of the groups of an expression. -/
def namesSize : Pattern → Nat
  | group _ name body => (name.map nameSize).getD 0 + namesSize body
  | repeated _ _ body => namesSize body
  | sequence parts => allNamesSize parts
  | choice branches => allNamesSize branches
  | _ => 0

def allNamesSize : List Pattern → Nat
  | [] => 0
  | part :: rest => namesSize part + allNamesSize rest
end

/-- Bytes of the automaton: the whole is a group of its own, followed by a final state.  A group
that is repeated zero times, and so has left the expression, still counts if a later group has not. -/
def size (pattern : Pattern) : Nat :=
  statesSize (group 0 none pattern) + stateSize + groupSize * (1 + pattern.lastGroup) +
    pattern.namesSize

/-- The most bytes that an automaton may take. -/
def sizeLimit : Nat := 10 * 1024 * 1024

/-- The expression itself if it is neither nested too deeply nor too large. -/
def checked (pattern : Pattern) : Except PatternError Pattern :=
  if !pattern.fits nestingLimit then .error .tooMuchNesting
  else if sizeLimit < pattern.size then .error .tooLarge
  else .ok pattern

/-- The expression that a text spells, provided that it is not too large. -/
def compile (text : String) (ignoreCase : Bool) : Except PatternError Pattern :=
  parse text.toList ignoreCase >>= checked

end VirtualShell.Pattern
