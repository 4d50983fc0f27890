import Turnstile.Number.Shortest

/-!
This module contains the numbers of JSON documents: whole numbers of 64 bits, kept apart from
doubles, with their reading from text and their printing.
-/

namespace Turnstile

namespace Number

def Fits (value : Int) : Prop :=
  -0x8000000000000000 ≤ value ∧ value < 0x10000000000000000

instance (value : Int) : Decidable (Fits value) := by
  unfold Fits
  infer_instance

end Number

/--
A number of a document. Two numbers of different kinds are different, also when they have the same
value.
-/
inductive Number where
  | int (value : Int) (fits : Number.Fits value)
  | real (value : Double)
  deriving DecidableEq

namespace Number

instance : Inhabited Number := ⟨int 0 (by decide)⟩

def ofUInt64 (n : UInt64) : Number :=
  .int n.toNat (by have := n.toNat_lt; unfold Fits; omega)

def ofInt64 (n : Int64) : Number :=
  .int n.toInt (by have := n.le_toInt; have := n.toInt_lt; unfold Fits; omega)

instance : OfNat Number n where
  ofNat := ofUInt64 (UInt64.ofNat n)

def toRat : Number → Rat
  | .int value _ => value
  | .real value => value.toRat

def toDouble : Number → Double
  | .int value _ =>
    let x := (Double.ofNat? value.natAbs).getD default
    if value < 0 then x.neg else x
  | .real value => value

def isInteger (n : Number) : Bool :=
  n.toRat.isInt

def toUInt64? : Number → Option UInt64
  | .int value _ => if 0 ≤ value then some (UInt64.ofNat value.toNat) else none
  | .real _ => none

def toInt64? : Number → Option Int64
  | .int value _ => if value < 0x8000000000000000 then some (Int64.ofInt value) else none
  | .real _ => none

/-- The value of a number that is whole and not negative, whichever way it is written. -/
def toNat? (n : Number) : Option Nat :=
  if n.isInteger && 0 ≤ n.toRat then some n.toRat.num.toNat else none

/-- Doubles are positional from `1e-5` on and below `1e16`, and whole ones end in `.0`. -/
def layout : Decimal.Layout :=
  { lowest := -5, highest := 16, point := true }

def text : Number → String
  | .int value _ => toString value
  | .real value => value.render layout

/--
Appends decimal digits to a significand as long as it fits 64 bits, and counts the digits that are
left out from there on.
-/
def accumulate (significand : Nat) : List Char → Nat × Nat
  | [] => (significand, 0)
  | c :: rest =>
    let next := significand * 10 + (c.toNat - '0'.toNat)
    if next < UInt64.size then accumulate next rest else (significand, rest.length + 1)

def digitsToNat (digits : List Char) : Nat :=
  digits.foldl (fun n c => n * 10 + (c.toNat - '0'.toNat)) 0

/-- The digits that a text starts with, and the rest. -/
def spanDigits (text : List Char) : List Char × List Char :=
  (text.takeWhile Char.isDigit, text.dropWhile Char.isDigit)

/-- Reads `.` and at least one digit, if the text goes on with a point. -/
def fraction? : List Char → Option (List Char × List Char)
  | '.' :: rest =>
    match spanDigits rest with
    | ([], _) => none
    | found => some found
  | rest => some ([], rest)

/-- Reads the exponent that ends a number, if there is one. -/
def exponent? : List Char → Option (Option Int)
  | [] => some none
  | c :: rest =>
    if c = 'e' || c = 'E' then
      let (negative, rest) :=
        match rest with
        | '+' :: rest => (false, rest)
        | '-' :: rest => (true, rest)
        | rest => (false, rest)
      match spanDigits rest with
      | ([], _) => none
      | (digits, []) =>
        let value : Int := digitsToNat digits
        some (some (if negative then -value else value))
      | _ => none
    else
      none

/-- The number of a sign, whole digits, digits after the point and an exponent. -/
def ofParts? (negative : Bool) (whole decimals : List Char) (exponent : Option Int) :
    Option Number :=
  let (significand, dropped) := accumulate 0 whole
  let signed (x : Double) : Number := .real (if negative then x.neg else x)
  if decimals = [] && exponent = none && dropped = 0 then
    if negative && significand = 0 then
      some (signed (.zero false))
    else if h : Fits (if negative then -significand else significand) then
      some (.int _ h)
    else
      (Double.ofNat? significand).map signed
  else
    let (significand, skipped) := accumulate significand decimals
    let places : Int := decimals.length - skipped
    (Double.ofDecimal? significand (dropped - places + exponent.getD 0)).map signed

/-- Reads a number: no leading zeros, no bare point, no leading plus sign, nothing after it. -/
def ofText? (text : List Char) : Option Number := do
  let (negative, text) :=
    match text with
    | '-' :: rest => (true, rest)
    | text => (false, text)
  let (whole, rest) := spanDigits text
  if whole = [] || (whole.head? = some '0' && whole.length ≠ 1) then
    none
  else
    let (decimals, rest) ← fraction? rest
    let exponent ← exponent? rest
    ofParts? negative whole decimals exponent

end Number

end Turnstile
