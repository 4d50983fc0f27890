/-!
This module contains the finite IEEE doubles as exact dyadic numbers, together with the arithmetic
on them that is rounded once to the nearest double, ties to the even significand.
-/

namespace Turnstile

namespace Double

/-- The highest of the 53 bits of a significand, which is `2 ^ 52`. -/
abbrev leadingBit : Nat := 0x10000000000000

/--
The significands and exponents that binary64 stores: either the leading bit is set, or the number
is subnormal.
-/
def Canonical (significand : Nat) (exponent : Int) : Prop :=
  significand < 2 * leadingBit ∧ -1074 ≤ exponent ∧ exponent ≤ 971 ∧
    (leadingBit ≤ significand ∨ exponent = -1074)

instance (significand : Nat) (exponent : Int) : Decidable (Canonical significand exponent) := by
  unfold Canonical
  infer_instance

end Double

/--
The number `significand * 2 ^ exponent`, or its negation. Both zeros are kept.
-/
structure Double where
  negative : Bool
  significand : Nat
  exponent : Int
  canonical : Double.Canonical significand exponent
  deriving DecidableEq

namespace Double

def zero (negative : Bool) : Double :=
  ⟨negative, 0, -1074, by decide⟩

instance : Inhabited Double := ⟨zero false⟩

def isZero (x : Double) : Bool :=
  x.significand == 0

def magnitude (x : Double) : Nat × Nat :=
  (x.significand * Nat.pow 2 x.exponent.toNat, Nat.pow 2 (-x.exponent).toNat)

theorem magnitude_snd_pos (x : Double) : 0 < x.magnitude.2 := by
  exact Nat.two_pow_pos _

def toRat (x : Double) : Rat :=
  let value := mkRat x.magnitude.1 x.magnitude.2
  if x.negative then -value else value

def neg (x : Double) : Double :=
  { x with negative := !x.negative }

@[simp]
theorem neg_neg (x : Double) : x.neg.neg = x := by
  simp [neg]

/--
The double nearest to `num / den`, ties to the even significand. There is none if the quotient lies
beyond the largest double.
-/
def round? (negative : Bool) (num den : Nat) : Option Double :=
  if num = 0 then
    some (zero negative)
  else
    let low : Int := max (-1074) ((num.log2 : Int) - den.log2 - 53)
    let exponent := if quotient low < 2 * leadingBit then low else low + 1
    let up := roundsUp exponent
    let significand := if up then quotient exponent + 1 else quotient exponent
    let (significand, exponent) :=
      if significand = 2 * leadingBit then (leadingBit, exponent + 1) else (significand, exponent)
    if h : Canonical significand exponent then
      some ⟨negative, significand, exponent, h⟩
    else
      none
where
  top (exponent : Int) : Nat := num * Nat.pow 2 (-exponent).toNat
  bottom (exponent : Int) : Nat := den * Nat.pow 2 exponent.toNat
  quotient (exponent : Int) : Nat := top exponent / bottom exponent
  roundsUp (exponent : Int) : Bool :=
    let rest := top exponent % bottom exponent
    bottom exponent < 2 * rest || (2 * rest == bottom exponent && quotient exponent % 2 == 1)

def ofNat? (n : Nat) : Option Double :=
  round? false n 1

def sub? (x y : Double) : Option Double :=
  let difference := x.toRat - y.toRat
  round? (difference < 0) difference.num.natAbs difference.den

def mul? (x y : Double) : Option Double :=
  round? (x.negative != y.negative) (x.magnitude.1 * y.magnitude.1)
    (x.magnitude.2 * y.magnitude.2)

def div? (x y : Double) : Option Double :=
  if y.isZero then
    none
  else
    round? (x.negative != y.negative) (x.magnitude.1 * y.magnitude.2)
      (x.magnitude.2 * y.magnitude.1)

def pow10? (n : Nat) : Option Double :=
  round? false (Nat.pow 10 n) 1

/--
`significand * 10 ^ exponent`, where the significand, the power of ten and their product or quotient
are rounded one after the other. Powers beyond `10 ^ 308` are divided off in several steps, and a
result that is too large has no double.
-/
def ofDecimal? (significand : Nat) (exponent : Int) : Option Double := do
  let x ← ofNat? significand
  if 0 ≤ exponent then
    if exponent.toNat ≤ 308 then
      x.mul? (← pow10? exponent.toNat)
    else if x.isZero then
      some x
    else
      none
  else
    let places := (-exponent).toNat
    let x ← lower x ((places - 1) / 308)
    x.div? (← pow10? (places - 308 * ((places - 1) / 308)))
where
  lower (x : Double) : Nat → Option Double
    | 0 => some x
    | n + 1 => if x.isZero then some x else do lower (← x.div? (← pow10? 308)) n

end Double

end Turnstile
