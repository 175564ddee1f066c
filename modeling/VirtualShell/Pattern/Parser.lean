import VirtualShell.Pattern.Basic
import VirtualShell.Pattern.Error
import VirtualShell.Text.Basic
import VirtualShell.Text.Letter

/-! # Reading patterns

The reader goes through a pattern from left to right and reports the first thing that is wrong.  The
flags that are switched on inside a group hold until the group ends.
-/

namespace VirtualShell.Pattern

/-- The options that change how the rest of a pattern is read. -/
structure Flags where
  ignoreCase : Bool := false
  multiLine : Bool := false
  dotMatchesAll : Bool := false
  anyLineEnds : Bool := false
  verbose : Bool := false

/-- The rest of a pattern, the flags in force, the number of groups opened before, and their names. -/
structure Cursor where
  rest : List Char
  flags : Flags
  groups : Nat
  names : List String

abbrev Parser := StateT Cursor (Except PatternError)

namespace Parser

def peek : Parser (Option Char) := return (← get).rest.head?

/-- The character after the one at the cursor. -/
def peekSecond : Parser (Option Char) := return (← get).rest.tail.head?

def skip (count : Nat) : Parser Unit := modify fun c => { c with rest := c.rest.drop count }

/-- The text after blanks and comments; a comment reaches from a number sign to the end of its line. -/
def dropLayout (inComment : Bool) : List Char → List Char
  | [] => []
  | c :: rest =>
    if inComment then dropLayout (c ≠ '\n') rest
    else if Text.isBlank c then dropLayout false rest
    else if c = '#' then dropLayout true rest
    else c :: rest

/-- Moves over blanks and comments when the flags allow them between the parts of a pattern. -/
def skipLayout : Parser Unit := modify fun c =>
  if c.flags.verbose then { c with rest := dropLayout false c.rest } else c

/-- Moves over one character and the layout after it. -/
def advance : Parser Unit := do
  skip 1
  skipLayout

/-- Moves on and fails when that reaches the end of the pattern. -/
def advanceOr (e : PatternError) : Parser Unit := do
  advance
  if (← peek).isNone then throw e

def skipText (text : List Char) : Parser Bool := do
  if text.isPrefixOf (← get).rest then
    skip text.length
    return true
  else return false

/-- The number of steps that a loop over the rest of the pattern may need. -/
def stepsLeft : Parser Nat := return (← get).rest.length + 1

/-- One character, in both cases if the flags say so. -/
def literal (c : Char) : Parser Pattern := return ofChar (← get).flags.ignoreCase c

/-! ## Numbers -/

/-- The digits at the cursor, with the layout after each. -/
def decimalDigits : Nat → List Char → Parser (List Char)
  | 0, done => return done.reverse
  | fuel + 1, done => do
    match ← peek with
    | some c =>
      if c.isDigit then
        advance
        decimalDigits fuel (c :: done)
      else return done.reverse
    | none => return done.reverse

def skipBlanks : Parser Unit :=
  modify fun c => { c with rest := c.rest.dropWhile Text.isBlank }

/-- A decimal number of at most 32 bits, with blanks around it. -/
def decimal : Parser Nat := do
  skipBlanks
  let digits ← decimalDigits (← stepsLeft) []
  skipBlanks
  if digits.isEmpty then throw .decimalWithoutDigits
  let value := digits.foldl (fun value c => 10 * value + (c.toNat - '0'.toNat)) 0
  if value < 0x100000000 then return value else throw .decimalTooLarge

def hexValue? (c : Char) : Option Nat :=
  if c.isDigit then some (c.toNat - '0'.toNat)
  else if 'a' ≤ c ∧ c ≤ 'f' then some (c.toNat - 'a'.toNat + 10)
  else if 'A' ≤ c ∧ c ≤ 'F' then some (c.toNat - 'A'.toNat + 10)
  else none

def charOfCode? (code : Nat) : Option Char :=
  if code < 0xD800 ∨ (0xDFFF < code ∧ code < 0x110000) then some (Char.ofNat code) else none

/-- The code given by as many hexadecimal digits as are asked for. -/
def fixedHex : (digits : Nat) → (value : Nat) → Parser Nat
  | 0, value => return value
  | digits + 1, value => do
    match ← peek with
    | none => throw .hexFixedUnfinished
    | some c =>
      match hexValue? c with
      | none => throw .hexFixedBadDigit
      | some d =>
        advance
        fixedHex digits (16 * value + d)

/-- The hexadecimal digits up to a closing brace, as their number and their value. -/
def bracedHex : Nat → (count value : Nat) → Parser (Nat × Nat)
  | 0, _, _ => throw .hexBracesUnclosed
  | fuel + 1, count, value => do
    match ← peek with
    | none => throw .hexBracesUnclosed
    | some '\x7d' =>
      advance
      return (count, value)
    | some c =>
      match hexValue? c with
      | none => throw .hexBracesBadDigit
      | some d =>
        advance
        bracedHex fuel (count + 1) (16 * value + d)

/-- A character given by its code, after the letter that says how long the code is. -/
def hexEscape (digits : Nat) : Parser Pattern := do
  advanceOr .hexUnfinished
  if (← peek) = some '\x7b' then
    advance
    let (count, value) ← bracedHex (← stepsLeft) 0 0
    if count = 0 then throw .hexBracesEmpty
    match charOfCode? value with
    | some c => literal c
    | none => throw .hexBracesInvalid
  else
    match charOfCode? (← fixedHex digits 0) with
    | some c => literal c
    | none => throw .hexFixedInvalid

/-! ## Escapes -/

/-- The characters that may be spelled after a backslash to stand for themselves. -/
def standsForItself (c : Char) : Bool :=
  c.toNat < 0x80 && !c.isAlphanum && c ≠ '<' && c ≠ '>'

/-- The characters of the name of a word boundary. -/
def isBoundaryLetter (c : Char) : Bool := c.isAlpha || c = '-'

/-- The name of a word boundary at the cursor. -/
def boundaryName : Nat → List Char → Parser (List Char)
  | 0, done => return done.reverse
  | fuel + 1, done => do
    match ← peek with
    | some c =>
      if isBoundaryLetter c then
        advance
        boundaryName fuel (c :: done)
      else return done.reverse
    | none => return done.reverse

/-- What follows the letter of a word boundary: a name in braces narrows the boundary, while braces
that hold something else are left for a repetition. -/
def boundary : Parser Pattern := do
  let start ← get
  if (← peek) ≠ some '\x7b' then return look .wordBoundary
  advanceOr .boundaryUnfinished
  let named := (← peek).any isBoundaryLetter
  if !named then
    set start
    return look .wordBoundary
  let name ← boundaryName (← stepsLeft) []
  if (← peek) ≠ some '\x7d' then throw .boundaryUnclosed
  skip 1
  match String.ofList name with
  | "start" => return look .wordStart
  | "end" => return look .wordEnd
  | "start-half" => return look .wordStartHalf
  | "end-half" => return look .wordEndHalf
  | _ => throw .boundaryUnrecognized

/-- The letter that a set of characters has after a backslash; a capital means all other characters. -/
def classLetter? : Char → Option CharSet
  | 'd' => some .digit
  | 's' => some .space
  | 'w' => some .word
  | 'D' => some CharSet.digit.complement
  | 'S' => some CharSet.space.complement
  | 'W' => some CharSet.word.complement
  | _ => none

/-- The control character that a letter stands for after a backslash. -/
def controlLetter? : Char → Option Char
  | 'a' => some '\x07'
  | 'f' => some '\x0c'
  | 't' => some '\t'
  | 'n' => some '\n'
  | 'r' => some '\r'
  | 'v' => some '\x0b'
  | _ => none

/-- The condition on a position that a character stands for after a backslash. -/
def lookLetter? : Char → Option Look
  | 'A' => some .textStart
  | 'z' => some .textEnd
  | 'B' => some .notWordBoundary
  | '<' => some .wordStart
  | '>' => some .wordEnd
  | _ => none

/-- The number of digits in a code of fixed length after a letter. -/
def hexLength? : Char → Option Nat
  | 'x' => some 2
  | 'u' => some 4
  | 'U' => some 8
  | _ => none

/-- What a backslash at the cursor and the characters after it stand for. -/
def escape : Parser Pattern := do
  skip 1
  match ← peek with
  | none => throw .escapeUnfinished
  | some c =>
    if c.isDigit then throw .backreference
    if c = 'p' ∨ c = 'P' then throw .unicodeClass
    if let some digits := hexLength? c then return ← hexEscape digits
    skip 1
    if let some set := classLetter? c then return oneOf set
    if standsForItself c then return ← literal c
    if let some control := controlLetter? c then return ← literal control
    if let some condition := lookLetter? c then return look condition
    if c = 'b' then return ← boundary
    throw .unrecognizedEscape

/-! ## Character classes -/

def namedClass? : Parser (Option CharSet) := do
  match (← get).rest with
  | '[' :: ':' :: inside =>
    let (negated, inside) := match inside with
      | '^' :: rest => (true, rest)
      | _ => (false, inside)
    let (name, after) := inside.span (· ≠ ':')
    match after, CharSet.named? name with
    | ':' :: ']' :: rest, some set =>
      modify fun c => { c with rest }
      return some (if negated then set.complement else set)
    | _, _ => return none
  | _ => return none

def classItem : Parser Pattern := do
  match ← peek with
  | some '\\' => escape
  | some c =>
    skip 1
    return char c
  | none => throw .classUnclosed

def itemRanges : Pattern → Parser (List (Nat × Nat))
  | char c => return [CharSet.span c c]
  | oneOf set => return set.ranges
  | _ => throw .classInvalidItem

/-- The character of an item at the end of a range. -/
def itemChar : Pattern → Parser Char
  | char c => return c
  | _ => throw .classRangeNotChars

/-- The character that follows the dash at the cursor, as far as a dash looks: after blanks, past one
number sign, and after further blanks. -/
def afterDash : Parser (Option Char) := do
  let c ← get
  if c.flags.verbose then
    match c.rest.tail.dropWhile Text.isBlank with
    | '#' :: rest => return (rest.dropWhile Text.isBlank).head?
    | rest => return rest.head?
  else return c.rest.tail.head?

/-- One item of a class, or the range that begins with it. -/
def classRange : Parser (List (Nat × Nat)) := do
  let first ← classItem
  skipLayout
  match ← peek with
  | none => throw .classUnclosedAfterItem
  | some c =>
    let next ← afterDash
    if c ≠ '-' ∨ next = some ']' ∨ next = some '-' then itemRanges first
    else
      advanceOr .classUnclosedAfterDash
      let last ← classItem
      let first ← itemChar first
      let last ← itemChar last
      if last < first then throw .classRangeOutOfOrder
      return [CharSet.span first last]

/-- The dashes that begin a class and stand for themselves. -/
def leadingDashes : Nat → List (Nat × Nat) → Parser (List (Nat × Nat))
  | 0, ranges => return ranges
  | fuel + 1, ranges => do
    if (← peek) = some '-' then
      advanceOr .classUnclosedAfterDash
      leadingDashes fuel (CharSet.span '-' '-' :: ranges)
    else return ranges

/-- The items of a class up to its closing bracket. -/
def classItems : Nat → List (Nat × Nat) → Parser (List (Nat × Nat))
  | 0, _ => throw .classUnclosed
  | fuel + 1, ranges => do
    skipLayout
    match ← peek with
    | none => throw .classUnclosed
    | some '[' =>
      match ← namedClass? with
      | some set => classItems fuel (ranges ++ set.ranges)
      | none => throw .classNested
    | some ']' =>
      skip 1
      return ranges
    | some c =>
      let next ← peekSecond
      if c = '&' ∧ next = some '&' then throw .classIntersection
      if c = '-' ∧ next = some '-' then throw .classDifference
      if c = '~' ∧ next = some '~' then throw .classSymmetricDifference
      classItems fuel (ranges ++ (← classRange))

/-- A class in brackets.  Letters get their other case before the class is negated. -/
def bracketClass : Parser Pattern := do
  advanceOr .classUnclosed
  let negated := (← peek) = some '^'
  if negated then advanceOr .classUnclosedAfterNegation
  let dashes ← leadingDashes (← stepsLeft) []
  let literalBracket := dashes.isEmpty && (← peek) = some ']'
  if literalBracket then advanceOr .classUnclosedAfterClosing
  let start := if literalBracket then [CharSet.span ']' ']'] else dashes
  let ranges ← classItems (← stepsLeft) start
  let set := CharSet.ofRanges ranges
  let set := if (← get).flags.ignoreCase then set.foldCase else set
  return oneOf (if negated then set.complement else set)

/-! ## Repetitions -/

/-- Takes the last expression of a sequence, which is given backwards. -/
def takeLast (e : PatternError) : List Pattern → Parser (Pattern × List Pattern)
  | [] => throw e
  | last :: before => return (last, before)

/-- Moves over the question mark that makes a repetition prefer fewer rounds. -/
def skipQuestion : Parser Unit := do
  if (← peek) = some '?' then skip 1

/-- A repetition by a star, a plus or a question mark. -/
def uncounted (least : Nat) (most : Option Nat) (parts : List Pattern) : Parser (List Pattern) := do
  let (body, before) ← takeLast .nothingToRepeat parts
  skip 1
  skipQuestion
  return ofRepeated least most body :: before

/-- The upper bound after the comma of a counted repetition. -/
def upperBound : Parser (Option Nat) := do
  advanceOr .countUnclosedAfterComma
  let most ← if (← peek) = some '\x7d' then pure none else some <$> decimal
  if (← peek).isNone then throw .countUnclosedAfterMax
  return most

def counted (parts : List Pattern) : Parser (List Pattern) := do
  let (body, before) ← takeLast .nothingToCount parts
  advanceOr .countUnclosed
  let least ← decimal
  if (← peek).isNone then throw .countUnclosedAfterMin
  let most ← if (← peek) = some ',' then upperBound else pure (some least)
  if (← peek) ≠ some '\x7d' then throw .countInvalid
  advance
  skipQuestion
  if most.any (· < least) then throw .countOutOfOrder
  return ofRepeated least most body :: before

/-! ## Groups and the whole -/

/-- The flags with one of them set, if the letter names a flag. -/
def withFlag? (flags : Flags) (enabled : Bool) : Char → Option Flags
  | 'i' => some { flags with ignoreCase := enabled }
  | 'm' => some { flags with multiLine := enabled }
  | 's' => some { flags with dotMatchesAll := enabled }
  | 'R' => some { flags with anyLineEnds := enabled }
  | 'x' => some { flags with verbose := enabled }
  | 'U' => some flags
  | 'u' => some flags
  | _ => none

/-- Reads flags up to a colon or a closing parenthesis. -/
def flagLetters : Nat → Flags → (negated afterDash : Bool) → List Char → Parser Flags
  | 0, _, _, _, _ => throw .unclosedFlags
  | fuel + 1, flags, negated, afterDash, seen => do
    match ← peek with
    | none => throw .unclosedFlags
    | some c =>
      if c = ':' ∨ c = ')' then
        if afterDash then throw .danglingNegation
        return flags
      else if c = '-' then
        if negated then throw .repeatedNegation
        skip 1
        flagLetters fuel flags true true seen
      else
        match withFlag? flags (!negated) c with
        | none => throw .unrecognizedFlag
        | some flags =>
          if seen.contains c then throw .duplicateFlag
          skip 1
          flagLetters fuel flags negated false (c :: seen)

/-- A character that may stand in a group name. -/
def isNameChar (first : Bool) (c : Char) : Bool :=
  if first then c = '_' || Text.isLetter c
  else c = '_' || c = '.' || c = '[' || c = ']' || Text.isLetterOrNumber c

/-- Reads a group name up to the closing angle bracket. -/
def nameChars : Nat → List Char → Parser (List Char)
  | 0, _ => throw .unclosedGroupName
  | fuel + 1, done => do
    match ← peek with
    | none => throw .unclosedGroupName
    | some c =>
      if c = '>' then
        skip 1
        return done.reverse
      else if isNameChar done.isEmpty c then
        skip 1
        nameChars fuel (c :: done)
      else throw .invalidGroupName

/-- The name of a group, which no other group has. -/
def groupName : Parser String := do
  if (← peek).isNone then throw .missingGroupName
  let name ← String.ofList <$> nameChars (← stepsLeft) []
  if name.isEmpty then throw .emptyGroupName
  if (← get).names.contains name then throw .duplicateGroupName
  modify fun c => { c with names := name :: c.names }
  return name

/-- The expression of a group, after its name. -/
def groupBody (name : Option String) (expression : Parser Pattern) : Parser Pattern := do
  modify fun c => { c with groups := c.groups + 1 }
  let index := (← get).groups
  return group index name (← expression)

/-- What stands after an opening parenthesis up to the closing one.  Flags alone are no expression. -/
def parenthesized (expression : Parser Pattern) : Parser (Option Pattern) := do
  advance
  let rest := (← get).rest
  let startsWith (text : String) : Bool := text.toList.isPrefixOf rest
  if startsWith "?=" || startsWith "?!" || startsWith "?<=" || startsWith "?<!" then
    throw .lookAround
  if (← skipText ['?', 'P', '<']) || (← skipText ['?', '<']) then
    let name ← groupName
    return some (← groupBody (some name) expression)
  else if ← skipText ['?'] then
    if (← peek).isNone then throw .unclosedGroupQuestion
    let before := (← get).rest.length
    let flags ← flagLetters (← stepsLeft) (← get).flags false false []
    let after := (← get).rest.length
    modify fun c => { c with flags }
    if (← peek) = some ')' then
      if before = after then throw .emptyFlags
      return none
    else
      skip 1
      return some (← expression)
  else return some (← groupBody none expression)

/-- A character outside classes that is neither a group nor a repetition. -/
def primitive : Char → Parser Pattern
  | '\\' => escape
  | '.' => do
    skip 1
    let flags := (← get).flags
    return oneOf (if flags.dotMatchesAll then CharSet.complement ⟨[]⟩
      else if flags.anyLineEnds then CharSet.complement ⟨[(0x0A, 0x0A), (0x0D, 0x0D)]⟩
      else CharSet.complement ⟨[(0x0A, 0x0A)]⟩)
  | '^' => do
    skip 1
    let flags := (← get).flags
    return look (if !flags.multiLine then .textStart
      else if flags.anyLineEnds then .anyLineStart else .lineStart)
  | '$' => do
    skip 1
    let flags := (← get).flags
    return look (if !flags.multiLine then .textEnd
      else if flags.anyLineEnds then .anyLineEnd else .lineEnd)
  | c => do
    skip 1
    literal c

/-- The branches of an expression up to its end.  Branches and parts are given backwards. -/
def branches (top : Bool) (expression : Parser Pattern) :
    Nat → (done : List Pattern) → (parts : List Pattern) → Parser Pattern
  | 0, done, parts => return ofChoice (ofSequence parts.reverse :: done).reverse
  | fuel + 1, done, parts => do
    skipLayout
    match ← peek with
    | none => return ofChoice (ofSequence parts.reverse :: done).reverse
    | some '(' =>
      let flags := (← get).flags
      let sub ← parenthesized expression
      let parts ← match sub with
        | some sub =>
          modify fun c => { c with flags }
          pure (sub :: parts)
        | none => pure parts
      if (← peek) ≠ some ')' then throw .unclosedGroup
      skip 1
      branches top expression fuel done parts
    | some ')' =>
      if top then throw .unopenedGroup
      return ofChoice (ofSequence parts.reverse :: done).reverse
    | some '|' =>
      skip 1
      branches top expression fuel (ofSequence parts.reverse :: done) []
    | some '[' =>
      let set ← bracketClass
      branches top expression fuel done (set :: parts)
    | some '?' => branches top expression fuel done (← uncounted 0 (some 1) parts)
    | some '*' => branches top expression fuel done (← uncounted 0 none parts)
    | some '+' => branches top expression fuel done (← uncounted 1 none parts)
    | some '\x7b' => branches top expression fuel done (← counted parts)
    | some c =>
      let part ← primitive c
      branches top expression fuel done (part :: parts)

/-- An expression in which groups are nested less than `room` deep. -/
def expression (top : Bool) : (room : Nat) → Parser Pattern
  | 0 => throw .tooMuchNesting
  | room + 1 => do branches top (expression false room) (← stepsLeft) [] []

end Parser

/-- How deep the parts of a pattern may be nested. -/
def nestingLimit : Nat := 50

def parse (text : List Char) (ignoreCase : Bool) : Except PatternError Pattern :=
  let start : Cursor := ⟨text, { ignoreCase }, 0, []⟩
  (Parser.expression true (nestingLimit + 1)).run' start

end VirtualShell.Pattern
