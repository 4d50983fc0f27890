import Turnstile.Json.Printer
import Turnstile.Json.Record

/-!
This module contains UUIDs, which name runs and bridges.
-/

namespace Turnstile

structure Uuid where
  bits : BitVec 128
  deriving DecidableEq

namespace Uuid

def groups : List Nat := [8, 4, 4, 4, 12]

def digits (id : Uuid) : List Char :=
  (List.range 32).map fun i => Json.hexDigit (id.bits.toNat / Nat.pow 16 (31 - i) % 16)

def hyphenate : List Nat → List Char → List Char
  | [], digits => digits
  | [_], digits => digits
  | n :: lengths, digits => digits.take n ++ '-' :: hyphenate lengths (digits.drop n)

def text (id : Uuid) : String :=
  String.ofList (hyphenate groups id.digits)

instance : ToString Uuid := ⟨text⟩

def ofDigits? (digits : List Char) : Option Uuid := do
  let values ← digits.mapM Json.Reader.hexValue?
  if values.length = 32 then
    some ⟨BitVec.ofNat 128 (values.foldl (fun n digit => n * 16 + digit) 0)⟩
  else
    none

def ofHyphenated? (text : List Char) : Option Uuid := do
  let digits := text.filter (· ≠ '-')
  if hyphenate groups digits = text then ofDigits? digits else none

/-- Reads the bare form, the hyphenated form, and the hyphenated form in braces or after `urn:uuid:`. -/
def ofText? (text : String) : Option Uuid :=
  let chars := text.toList
  if chars.length = 32 then ofDigits? chars
  else if chars.length = 36 then ofHyphenated? chars
  else if chars.length = 38 then
    if chars.head? = some '\x7b' ∧ chars.getLast? = some '\x7d' then
      ofHyphenated? (chars.drop 1).dropLast
    else none
  else if chars.length = 45 then
    if chars.take 9 = "urn:uuid:".toList ∨ chars.take 9 = "URN:UUID:".toList then
      ofHyphenated? (chars.drop 9)
    else none
  else none

def ofRandom (entropy : BitVec 128) : Uuid :=
  let version := 0x4#128 <<< 76
  let variant := 0x2#128 <<< 62
  let free := ~~~(0xf#128 <<< 76 ||| 0x3#128 <<< 62)
  ⟨entropy &&& free ||| version ||| variant⟩

def version (id : Uuid) : Nat :=
  (id.bits >>> 76).toNat % 16

instance : Document Uuid where
  encode id := .string id.text
  decode value := do
    let text : String ← Document.decode value
    Document.require (ofText? text)

end Uuid

structure RunId where
  uuid : Uuid
  deriving DecidableEq

instance : ToString RunId := ⟨fun id => s!"run_{id.uuid}"⟩

structure BridgeId where
  uuid : Uuid
  deriving DecidableEq

instance : ToString BridgeId := ⟨fun id => s!"bridge_{id.uuid}"⟩

end Turnstile
