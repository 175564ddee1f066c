/-! # Values of the saved format

The values that JSON text denotes.  Objects keep the order and the repetitions of their fields, and
numbers keep their digits, so that a reader can decide what it accepts.

A written number is measured as a significand of 64 bits times a power of ten.  Both are rounded to 53
bits before they are multiplied, and the number is out of range if their product is too large for the
format of IEEE 754 with 64 bits.
-/

namespace VirtualShell

namespace Json

/-- A number with the digits it is written with: `significand * 10 ^ exponent` with a sign. -/
structure Number where
  negative : Bool
  significand : Nat
  exponent : Int
  /-- The number is written without a fraction and without an exponent. -/
  whole : Bool
deriving DecidableEq, Repr

end Json

inductive Json
  | null
  | bool (value : Bool)
  | number (value : Json.Number)
  | string (value : String)
  | array (items : List Json)
  | object (fields : List (String × Json))
deriving Inhabited

namespace Json

def ofNat (n : Nat) : Json := .number ⟨false, n, 0, true⟩

/-- The natural number that is written without sign, fraction and exponent. -/
def nat? : Json → Option Nat
  | .number ⟨false, n, 0, true⟩ => some n
  | _ => none

structure Numeral where
  negative : Bool
  /-- The digits before the point. -/
  before : List Char
  /-- The digits after the point, if there is a point. -/
  after : Option (List Char)
  /-- The exponent, if one is written. -/
  power : Option Int

/-- A natural number times a power of ten. -/
structure Scaled where
  significand : Nat
  exponent : Int
deriving DecidableEq, Repr

def digitValue (c : Char) : Nat := c.toNat - '0'.toNat

def digitsNat (digits : List Char) : Nat :=
  digits.foldl (fun value c => 10 * value + digitValue c) 0

/-- A significand with one more digit, if 64 bits can hold it. -/
def extend? (value : Nat) (c : Char) : Option Nat :=
  let longer := 10 * value + digitValue c
  if longer < 1 <<< 64 then some longer else none

/-- Adds digits before the point.  From the first one on that does not fit, each of them only raises
the exponent. -/
def addBefore (value : Nat) : List Char → Scaled
  | [] => ⟨value, 0⟩
  | c :: rest =>
    match extend? value c with
    | some longer => addBefore longer rest
    | none => ⟨value, rest.length + 1⟩

/-- Adds digits after the point, up to the first one that does not fit. -/
def addAfter (number : Scaled) : List Char → Scaled
  | [] => number
  | c :: rest =>
    match extend? number.significand c with
    | some longer => addAfter ⟨longer, number.exponent - 1⟩ rest
    | none => number

/-- The number of at most 53 significant bits that is nearest to a number; of two that are equally
near, the one whose last bit is even. -/
def nearest (n : Nat) : Nat :=
  let unit := 1 <<< (n.log2 - 52)
  let kept := n / unit
  let rest := 2 * (n % unit)
  let up := unit < rest || (unit = rest && kept % 2 = 1)
  (if up then kept + 1 else kept) * unit

/-- Rounding a product to the format of IEEE 754 with 64 bits, it has no finite result from here on. -/
def productBound : Nat := (1 <<< 1024) - (1 <<< 970)

/-- The value is too large for a finite number of 64 bits.  No power of ten above the 308th is finite,
and a negative power never makes a number too large. -/
def Scaled.overflows (n : Scaled) : Bool :=
  n.significand ≠ 0 && 0 ≤ n.exponent &&
    (308 < n.exponent ||
      productBound ≤ nearest n.significand * nearest (Nat.pow 10 n.exponent.toNat))

namespace Numeral

/-- What is measured of a written number. -/
def scaled (n : Numeral) : Scaled :=
  let number := addAfter (addBefore 0 n.before) (n.after.getD [])
  ⟨number.significand, number.exponent + n.power.getD 0⟩

def number (n : Numeral) : Number :=
  let places := n.after.getD []
  ⟨n.negative, digitsNat (n.before ++ places), n.power.getD 0 - places.length,
    n.after.isNone && n.power.isNone⟩

end Numeral

end Json

end VirtualShell
