/-!
This module contains base64: texts that stand for bytes, four characters for three of them.
-/

namespace Turnstile

namespace Base64

def alphabet : List Char :=
  "ABCDEFGHIJKLMNOPQRSTUVWXYZabcdefghijklmnopqrstuvwxyz0123456789+/".toList

def value? (c : Char) : Option Nat :=
  alphabet.idxOf? c

/-- The bytes of the last four characters. The bits that the padding leaves over have to be zero. -/
def last? (a b c d : Char) : Option (List UInt8) := do
  let a ← value? a
  let b ← value? b
  let first := UInt8.ofNat (a * 4 + b / 16)
  if c = '=' && d = '=' then
    if b % 16 = 0 then some [first] else none
  else
    let c ← value? c
    let second := UInt8.ofNat (b % 16 * 16 + c / 4)
    if d = '=' then
      if c % 4 = 0 then some [first, second] else none
    else
      return [first, second, UInt8.ofNat (c % 4 * 64 + (← value? d))]

/-- The bytes that a text stands for. Padding is only allowed at the end, and has to be there. -/
def decode? : List Char → Option (List UInt8)
  | [] => some []
  | [a, b, c, d] => last? a b c d
  | a :: b :: c :: d :: rest => do
    let bytes ← last? a b c d
    if bytes.length = 3 then return bytes ++ (← decode? rest) else none
  | _ => none

end Base64

end Turnstile
