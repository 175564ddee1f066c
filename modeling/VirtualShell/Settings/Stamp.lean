import VirtualShell.Settings.Text
import VirtualShell.State.Calendar

/-! # Dates and times in settings

Dates, times and both together are read in the forms of RFC 3339 and written back in one canonical
form.
-/

namespace VirtualShell.Settings

structure Date where
  year : Nat
  month : Nat
  day : Nat
deriving DecidableEq, Repr

/-- A time of day; the second may be a leap second. -/
structure Time where
  hour : Nat
  minute : Nat
  second : Nat
  nanoseconds : Nat
deriving DecidableEq, Repr

/-- How far a local time is ahead of Coordinated Universal Time. -/
inductive Offset
  | universal
  | minutes (ahead : Int)
deriving DecidableEq, Repr

/-- A written date, a time of day, or both. -/
inductive Stamp
  | dateOnly (date : Date)
  | timeOnly (time : Time)
  | both (date : Date) (time : Time) (offset : Option Offset)
deriving DecidableEq, Repr

namespace Stamp

def digitsNat (digits : List Char) : Nat :=
  digits.foldl (fun value c => 10 * value + (c.toNat - '0'.toNat)) 0

def readField (count least most : Nat) : Reader Nat := fun text =>
  let digits := text.take count
  let value := digitsNat digits
  if digits.length = count && digits.all Char.isDigit && least ≤ value && value ≤ most then
    some (value, text.drop count)
  else none

/-- Reads a date whose month has the day. -/
def readDate : Reader Date := fun text => do
  let (year, text) ← readField 4 0 9999 text
  let '-' :: text := text | none
  let (month, text) ← readField 2 1 12 text
  let '-' :: text := text | none
  let (day, text) ← readField 2 1 (Moment.daysIn year month) text
  return (⟨year, month, day⟩, text)

/-- Reads the fraction of a second as nanoseconds, if there is one; its digits after the ninth are left
out. -/
def readFraction : List Char → Nat × List Char
  | '.' :: text =>
    let digits := text.takeWhile Char.isDigit
    if digits.isEmpty then (0, '.' :: text)
    else (digitsNat ((digits ++ List.replicate 9 '0').take 9), text.drop digits.length)
  | text => (0, text)

def readTime : Reader Time := fun text => do
  let (hour, text) ← readField 2 0 23 text
  let ':' :: text := text | none
  let (minute, text) ← readField 2 0 59 text
  let ':' :: text := text | none
  let (second, text) ← readField 2 0 60 text
  let (nanoseconds, text) := readFraction text
  return (⟨hour, minute, second, nanoseconds⟩, text)

def readMinutes : Reader Nat := fun text => do
  let (hours, text) ← readField 2 0 23 text
  let ':' :: text := text | none
  let (minutes, text) ← readField 2 0 59 text
  return (60 * hours + minutes, text)

def readOffset : Reader (Option Offset)
  | '+' :: text => (readMinutes text).map fun (minutes, rest) => (some (.minutes minutes), rest)
  | '-' :: text => (readMinutes text).map fun (minutes, rest) => (some (.minutes (-minutes)), rest)
  | c :: text => if c = 'Z' ∨ c = 'z' then some (some .universal, text) else some (none, c :: text)
  | [] => some (none, [])

/-- Reads the time that may follow a date, with its offset. -/
def readClock : Reader (Time × Option Offset)
  | c :: text => do
    if c ≠ 'T' ∧ c ≠ 't' ∧ c ≠ ' ' then none
    let (time, text) ← readTime text
    let (offset, text) ← readOffset text
    return ((time, offset), text)
  | [] => none

/-- Reads a date, a time, or a date with a time after it. -/
def read : Reader Stamp := fun text =>
  match readDate text with
  | some (date, rest) =>
    match readClock rest with
    | some ((time, offset), rest) => some (both date time offset, rest)
    | none => some (.dateOnly date, rest)
  | none => (readTime text).map fun (time, rest) => (.timeOnly time, rest)

def padded (count n : Nat) : List Char := (Nat.toDigits 10 n).leftpad count '0'

end Stamp

def Date.write (d : Date) : List Char :=
  Stamp.padded 4 d.year ++ '-' :: Stamp.padded 2 d.month ++ '-' :: Stamp.padded 2 d.day

/-- The canonical form of a time, with a fraction that does not end in zeros. -/
def Time.write (t : Time) : List Char :=
  let fraction := (Stamp.padded 9 t.nanoseconds).reverse.dropWhile (· = '0')
  Stamp.padded 2 t.hour ++ ':' :: Stamp.padded 2 t.minute ++ ':' :: Stamp.padded 2 t.second ++
    (if fraction.isEmpty then [] else '.' :: fraction.reverse)

def Offset.write : Offset → List Char
  | universal => ['Z']
  | minutes ahead =>
    (if ahead < 0 then '-' else '+') :: Stamp.padded 2 (ahead.natAbs / 60) ++
      ':' :: Stamp.padded 2 (ahead.natAbs % 60)

def Stamp.render (stamp : Stamp) : String :=
  String.ofList <| match stamp with
  | dateOnly date => date.write
  | timeOnly time => time.write
  | both date time offset => date.write ++ 'T' :: time.write ++ (offset.map Offset.write).getD []

end VirtualShell.Settings
