import Turnstile.Number.Double

/-!
This module contains the choice of the fewest decimal digits that identify a double. The reals that
round to a double form an interval, and the first decimal grid with a point inside it wins.
-/

namespace Turnstile

/-- The number `digits * 10 ^ exponent`. -/
structure Decimal where
  digits : Nat
  exponent : Int
  deriving DecidableEq, Repr

namespace Decimal

def toRat (d : Decimal) : Rat :=
  mkRat (d.digits * Nat.pow 10 d.exponent.toNat) (Nat.pow 10 (-d.exponent).toNat)

def strip (d : Decimal) : Decimal :=
  go d.digits.log2 d
where
  go : Nat → Decimal → Decimal
    | 0, d => d
    | n + 1, d =>
      if d.digits != 0 && d.digits % 10 == 0 then go n ⟨d.digits / 10, d.exponent + 1⟩ else d

end Decimal

namespace Double

/--
A positive double between the two points halfway to its neighbours. All three are counted in
quarters of the unit in the last place, and one quarter is `2 ^ exponent`.
-/
structure Interval where
  low : Nat
  middle : Nat
  high : Nat
  exponent : Int
  closed : Bool

def interval (x : Double) : Interval :=
  let narrow := x.significand == leadingBit && -1074 < x.exponent
  { low := 4 * x.significand - (if narrow then 1 else 2)
    middle := 4 * x.significand
    high := 4 * x.significand + 2
    exponent := x.exponent - 2
    closed := x.significand % 2 == 0 }

namespace Interval

/-- Compares `quarters * 2 ^ exponent` with `count * 10 ^ grid`. -/
def compare (i : Interval) (quarters count : Nat) (grid : Int) : Ordering :=
  Ord.compare (quarters * Nat.pow 2 i.exponent.toNat * Nat.pow 10 (-grid).toNat)
    (count * Nat.pow 10 grid.toNat * Nat.pow 2 (-i.exponent).toNat)

def contains (i : Interval) (count : Nat) (grid : Int) : Bool :=
  match i.compare i.low count grid, i.compare i.high count grid with
  | .lt, .gt => true
  | .eq, _ | _, .eq => i.closed
  | _, _ => false

/-- The last point of the grid that is not above the middle. -/
def floor (i : Interval) (grid : Int) : Nat :=
  (i.middle * Nat.pow 2 i.exponent.toNat * Nat.pow 10 (-grid).toNat) /
    (Nat.pow 10 grid.toNat * Nat.pow 2 (-i.exponent).toNat)

/--
The point of the grid inside the interval. Of two points the one nearer to the middle is taken, and
of two equally near ones the even one.
-/
def pick? (i : Interval) (grid : Int) : Option Nat :=
  let below := i.floor grid
  match i.contains below grid, i.contains (below + 1) grid with
  | true, true =>
    match i.compare (2 * i.middle) (2 * below + 1) grid with
    | .lt => some below
    | .gt => some (below + 1)
    | .eq => some (if below % 2 == 0 then below else below + 1)
  | true, false => some below
  | false, true => some (below + 1)
  | false, false => none

/-- The least power of ten above the middle, or one close to it. -/
def scale (i : Interval) : Int :=
  let guess := (((i.middle.log2 : Int) + i.exponent) * 30103).fdiv 100000
  if i.compare i.middle 1 guess == .lt then guess
  else if i.compare i.middle 1 (guess + 1) == .lt then guess + 1
  else guess + 2

end Interval

/-- The fewest digits that round to the magnitude of `x`. Seventeen digits are always enough. -/
def shortest (x : Double) : Decimal :=
  if x.isZero then
    ⟨0, 0⟩
  else
    go x.interval (x.interval.scale - 1) 17
where
  go (i : Interval) (grid : Int) : Nat → Decimal
    | 0 => Decimal.strip ⟨i.floor grid, grid⟩
    | n + 1 =>
      match i.pick? grid with
      | some digits => Decimal.strip ⟨digits, grid⟩
      | none => go i (grid - 1) n

end Double

namespace Decimal

structure Layout where
  /-- Positional notation is used for leading digits from this power of ten on. -/
  lowest : Int
  highest : Int
  /-- Whole numbers in positional notation end in `.0`. -/
  point : Bool

/-- Digits with the point before the last `places` of them. -/
def positional (layout : Layout) (d : Decimal) : String :=
  if 0 ≤ d.exponent then
    toString (d.digits * Nat.pow 10 d.exponent.toNat) ++ (if layout.point then ".0" else "")
  else
    let places := (-d.exponent).toNat
    let digits := (toString d.digits).toList
    let padded := List.replicate (places + 1 - digits.length) '0' ++ digits
    String.ofList (padded.take (padded.length - places)) ++ "." ++
      String.ofList (padded.drop (padded.length - places))

/-- One digit, a point if others follow, and a signed exponent without padding. -/
def scientific (d : Decimal) : String :=
  let digits := (toString d.digits).toList
  let power := d.exponent + (digits.length - 1)
  let sign := if power < 0 then "-" else "+"
  let rest := if digits.length = 1 then "" else "." ++ String.ofList (digits.drop 1)
  String.ofList (digits.take 1) ++ rest ++ "e" ++ sign ++ toString power.natAbs

def render (layout : Layout) (d : Decimal) : String :=
  let power := d.exponent + ((toString d.digits).length - 1)
  if d.digits = 0 || (layout.lowest ≤ power && power < layout.highest) then
    positional layout d
  else
    scientific d

end Decimal

def Double.render (layout : Decimal.Layout) (x : Double) : String :=
  (if x.negative then "-" else "") ++ x.shortest.render layout

end Turnstile
