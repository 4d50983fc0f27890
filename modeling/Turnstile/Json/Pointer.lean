import Turnstile.Json.Basic

/-!
This module contains JSON pointers: texts that lead from a value to one of its parts.
-/

namespace Turnstile

namespace Pointer

/-- Writes `~` as `~0` and `/` as `~1`. -/
def escape : List Char → List Char
  | [] => []
  | '~' :: rest => '~' :: '0' :: escape rest
  | '/' :: rest => '~' :: '1' :: escape rest
  | c :: rest => c :: escape rest

/-- Reads `~1` as `/`. -/
def unescapeSlash : List Char → List Char
  | [] => []
  | '~' :: '1' :: rest => '/' :: unescapeSlash rest
  | c :: rest => c :: unescapeSlash rest

/-- Reads `~0` as `~`. -/
def unescapeTilde : List Char → List Char
  | [] => []
  | '~' :: '0' :: rest => '~' :: unescapeTilde rest
  | c :: rest => c :: unescapeTilde rest

/-- Reads the escapes of a segment, slashes first. Any other `~` stays. -/
def unescape (segment : List Char) : List Char :=
  unescapeTilde (unescapeSlash segment)

def escapeText (segment : String) : String :=
  String.ofList (escape segment.toList)

def splitSlashes : List Char → List (List Char)
  | [] => [[]]
  | '/' :: rest => [] :: splitSlashes rest
  | c :: rest =>
    match splitSlashes rest with
    | [] => [[c]]
    | segment :: segments => (c :: segment) :: segments

/-- The keys of a pointer, unless its text does not start with a slash. -/
def keys? : List Char → Option (List String)
  | [] => some []
  | '/' :: rest => some ((splitSlashes rest).map fun segment => String.ofList (unescape segment))
  | _ => none

/-- A position in a list is written in decimal digits without leading zeros. -/
def index? (key : String) : Option Nat :=
  let digits := key.toList
  if digits = [] || !digits.all Char.isDigit || (digits.head? = some '0' && digits.length ≠ 1) then
    none
  else
    some (Number.digitsToNat digits)

end Pointer

namespace Json

def child? (key : String) : Json → Option Json
  | .object members => members.lookup key
  | .list items => (Pointer.index? key).bind fun i => items[i]?
  | _ => none

def descend? (value : Json) : List String → Option Json
  | [] => some value
  | key :: keys => (value.child? key).bind fun part => part.descend? keys

def pointer? (value : Json) (pointer : String) : Option Json :=
  (Pointer.keys? pointer.toList).bind value.descend?

end Json

end Turnstile
