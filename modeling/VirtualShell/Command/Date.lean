import VirtualShell.State.Action

/-! # Dates

The format in which the time is printed.  A percent sign begins a field; a field that is unknown, or a
percent sign at the end, makes the format invalid.
-/

namespace VirtualShell.Command

inductive Padding
  | none
  | zeros
  | blanks

/-- A number with at least the given number of characters. -/
def Padding.fill (padding : Padding) (width n : Nat) : List Char :=
  let digits := Nat.toDigits 10 n
  match padding with
  | .none => digits
  | .zeros => digits.leftpad width '0'
  | .blanks => digits.leftpad width ' '

namespace Date

def dayNames : List String :=
  ["Monday", "Tuesday", "Wednesday", "Thursday", "Friday", "Saturday", "Sunday"]

def monthNames : List String :=
  ["January", "February", "March", "April", "May", "June", "July", "August", "September", "October",
    "November", "December"]

def faceHour (m : Moment) : Nat := if m.hour % 12 = 0 then 12 else m.hour % 12

/-- A field that is a number: its usual padding, its width and its value. -/
def number? (m : Moment) : Char → Option (Padding × Nat × Nat)
  | 'Y' => some (.zeros, 4, m.year)
  | 'C' => some (.zeros, 2, m.year / 100)
  | 'y' => some (.zeros, 2, m.year % 100)
  | 'G' => some (.zeros, 4, m.numberedWeek.1)
  | 'g' => some (.zeros, 2, m.numberedWeek.1 % 100)
  | 'm' => some (.zeros, 2, m.month)
  | 'd' => some (.zeros, 2, m.day)
  | 'e' => some (.blanks, 2, m.day)
  | 'w' => some (.none, 1, (m.weekday + 1) % 7)
  | 'u' => some (.none, 1, m.weekday + 1)
  | 'U' => some (.zeros, 2, m.sundayWeek)
  | 'W' => some (.zeros, 2, m.mondayWeek)
  | 'V' => some (.zeros, 2, m.numberedWeek.2)
  | 'j' => some (.zeros, 3, m.ordinal)
  | 'H' => some (.zeros, 2, m.hour)
  | 'k' => some (.blanks, 2, m.hour)
  | 'I' => some (.zeros, 2, faceHour m)
  | 'l' => some (.blanks, 2, faceHour m)
  | 'M' => some (.zeros, 2, m.minute)
  | 'S' => some (.zeros, 2, m.second)
  | 'f' => some (.zeros, 9, m.nanoseconds)
  | 's' => some (.none, 1, m.seconds)
  | _ => none

/-- The first digits of the fraction of a second. -/
def fraction (m : Moment) (digits : Nat) : List Char :=
  ((Nat.toDigits 10 m.nanoseconds).leftpad 9 '0').take digits

/-- The fraction of a second with as few groups of three digits as hold it. -/
def shortFraction (m : Moment) : List Char :=
  if m.nanoseconds = 0 then []
  else if m.nanoseconds % 1000000 = 0 then '.' :: fraction m 3
  else if m.nanoseconds % 1000 = 0 then '.' :: fraction m 6
  else '.' :: fraction m 9

/-- A field that stands for a format of its own. -/
def composite? : Char → Option (List Char)
  | 'D' => some "%m/%d/%y".toList
  | 'x' => some "%m/%d/%y".toList
  | 'F' => some "%Y-%m-%d".toList
  | 'R' => some "%H:%M".toList
  | 'T' => some "%H:%M:%S".toList
  | 'X' => some "%H:%M:%S".toList
  | 'c' => some "%a %b %e %H:%M:%S %Y".toList
  | 'r' => some "%I:%M:%S %p".toList
  | 'v' => some "%e-%b-%Y".toList
  | _ => none

/-- A field that is a text.  The local zone has no name and shows its distance instead. -/
def text? (utc : Bool) (m : Moment) : Char → Option (List Char)
  | 'a' => some ((dayNames.getD m.weekday "").toList.take 3)
  | 'A' => some (dayNames.getD m.weekday "").toList
  | 'b' => some ((monthNames.getD (m.month - 1) "").toList.take 3)
  | 'h' => some ((monthNames.getD (m.month - 1) "").toList.take 3)
  | 'B' => some (monthNames.getD (m.month - 1) "").toList
  | 'p' => some (if m.hour < 12 then ['A', 'M'] else ['P', 'M'])
  | 'P' => some (if m.hour < 12 then ['a', 'm'] else ['p', 'm'])
  | 'Z' => some (if utc then "UTC" else "+00:00").toList
  | 'z' => some "+0000".toList
  | 'n' => some ['\n']
  | 't' => some ['\t']
  | '%' => some ['%']
  | _ => none

/-- The field at the start of a text, and the text after it. -/
def field? (utc : Bool) (m : Moment) (nested : List Char → Option (List Char)) :
    List Char → Option (List Char × List Char)
  | ':' :: ':' :: ':' :: 'z' :: rest => some ("+00".toList, rest)
  | ':' :: ':' :: 'z' :: rest => some ("+00:00:00".toList, rest)
  | ':' :: 'z' :: rest => some ("+00:00".toList, rest)
  | '.' :: '3' :: 'f' :: rest => some ('.' :: fraction m 3, rest)
  | '.' :: '6' :: 'f' :: rest => some ('.' :: fraction m 6, rest)
  | '.' :: '9' :: 'f' :: rest => some ('.' :: fraction m 9, rest)
  | '.' :: 'f' :: rest => some (shortFraction m, rest)
  | '3' :: 'f' :: rest => some (fraction m 3, rest)
  | '6' :: 'f' :: rest => some (fraction m 6, rest)
  | '9' :: 'f' :: rest => some (fraction m 9, rest)
  | '-' :: c :: rest => (number? m c).map fun (_, width, n) => (Padding.none.fill width n, rest)
  | '0' :: c :: rest => (number? m c).map fun (_, width, n) => (Padding.zeros.fill width n, rest)
  | '_' :: c :: rest => (number? m c).map fun (_, width, n) => (Padding.blanks.fill width n, rest)
  | '+' :: rest => do
    let day ← nested "%Y-%m-%dT%H:%M:%S".toList
    return (day ++ shortFraction m ++ "+00:00".toList, rest)
  | c :: rest => do
    match number? m c with
    | some (padding, width, n) => return (padding.fill width n, rest)
    | none =>
      match composite? c with
      | some format => return (← nested format, rest)
      | none => return (← text? utc m c, rest)
  | [] => none

/-- The text that a format gives for a moment.  Formats inside fields are `nesting` deep. -/
def render (utc : Bool) (m : Moment) : (nesting fuel : Nat) → List Char → Option (List Char)
  | _, 0, _ => some []
  | _, _ + 1, [] => some []
  | nesting, fuel + 1, '%' :: rest => do
    let nested := match nesting with
      | 0 => fun _ => none
      | nesting + 1 => fun format => render utc m nesting format.length format
    let (text, rest) ← field? utc m nested rest
    return text ++ (← render utc m nesting fuel rest)
  | nesting, fuel + 1, c :: rest => do return c :: (← render utc m nesting fuel rest)

def standard : String := "%a %b %e %H:%M:%S %Z %Y"

/-- Reads the zone and the format from arguments. -/
def options (utc : Bool) (format : String) : List String → Except ShellError (Bool × String)
  | [] => .ok (utc, format)
  | argument :: rest =>
    if argument = "-u" ∨ argument = "--utc" then options true format rest
    else match argument.toList with
      | '+' :: custom => options utc (String.ofList custom) rest
      | _ => .error (.usage ("date: invalid date '" ++ argument ++ "'"))

end Date

def date (given : List String) : Action (List Line) := do
  match Date.options false Date.standard given with
  | .error e => throw e
  | .ok (utc, format) =>
    let chars := format.toList
    match Date.render utc (← Action.moment) 1 chars.length chars with
    | some text => return [.output (String.ofList text)]
    | none => Action.misuse ("date: invalid format '" ++ format ++ "'")

end VirtualShell.Command
