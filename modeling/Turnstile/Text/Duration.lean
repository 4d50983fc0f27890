/-!
This module contains spans of time and their texts, which use the largest unit that the span fills and
drop trailing zeros.
-/

namespace Turnstile

structure Duration where
  nanoseconds : Nat
  deriving DecidableEq, Repr

namespace Duration

instance : LE Duration := ⟨fun a b => a.nanoseconds ≤ b.nanoseconds⟩

instance : LT Duration := ⟨fun a b => a.nanoseconds < b.nanoseconds⟩

instance (a b : Duration) : Decidable (a ≤ b) :=
  inferInstanceAs (Decidable (a.nanoseconds ≤ b.nanoseconds))

instance (a b : Duration) : Decidable (a < b) :=
  inferInstanceAs (Decidable (a.nanoseconds < b.nanoseconds))

instance : Add Duration := ⟨fun a b => ⟨a.nanoseconds + b.nanoseconds⟩⟩

def zero : Duration := ⟨0⟩

def ofMilliseconds (n : Nat) : Duration :=
  ⟨n * 1000000⟩

def ofSeconds (n : Nat) : Duration :=
  ⟨n * 1000000000⟩

/-- Whole milliseconds, as many as fit into 64 bits. -/
def toMilliseconds (d : Duration) : UInt64 :=
  UInt64.ofNat (min (d.nanoseconds / 1000000) (UInt64.size - 1))

def toSeconds (d : Duration) : Nat :=
  d.nanoseconds / 1000000000

/-- The digits of a fraction with the given number of places, without the zeros at its end. -/
def fractionDigits (places rest : Nat) : List Char :=
  let digits := Nat.toDigits 10 rest
  let padded := List.replicate (places - digits.length) '0' ++ digits
  (padded.reverse.dropWhile (· = '0')).reverse

/-- The span in units of `10 ^ places` nanoseconds. -/
def inUnit (d : Duration) (places : Nat) (unit : String) : String :=
  let whole := toString (d.nanoseconds / Nat.pow 10 places)
  let rest := d.nanoseconds % Nat.pow 10 places
  if rest = 0 then whole ++ unit
  else whole ++ "." ++ String.ofList (fractionDigits places rest) ++ unit

def text (d : Duration) : String :=
  if 1000000000 ≤ d.nanoseconds then d.inUnit 9 "s"
  else if 1000000 ≤ d.nanoseconds then d.inUnit 6 "ms"
  else if 1000 ≤ d.nanoseconds then d.inUnit 3 "µs"
  else d.inUnit 0 "ns"

instance : ToString Duration := ⟨text⟩

end Duration

end Turnstile
