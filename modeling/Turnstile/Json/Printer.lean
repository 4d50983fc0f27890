import Turnstile.Json.Basic

/-!
This module contains the two ways to print a JSON value: on one line without blanks, and over several
lines with an indent of two.
-/

namespace Turnstile

namespace Json

def hexDigit (n : Nat) : Char :=
  if n < 10 then Char.ofNat ('0'.toNat + n) else Char.ofNat ('a'.toNat + (n - 10))

/-- Only quotes, backslashes and control characters are escaped. -/
def escape (c : Char) : List Char :=
  if c = '"' then ['\\', '"']
  else if c = '\\' then ['\\', '\\']
  else if c = '\x08' then ['\\', 'b']
  else if c = '\x0c' then ['\\', 'f']
  else if c = '\n' then ['\\', 'n']
  else if c = '\r' then ['\\', 'r']
  else if c = '\t' then ['\\', 't']
  else if c.toNat < 32 then
    ['\\', 'u', '0', '0', hexDigit (c.toNat / 16), hexDigit (c.toNat % 16)]
  else [c]

def quote (s : String) : String :=
  "\"" ++ String.ofList (s.toList.flatMap escape) ++ "\""

mutual

/-- The value on one line, without blanks. -/
def compact : Json → String
  | .null => "null"
  | .bool true => "true"
  | .bool false => "false"
  | .number n => n.text
  | .string s => quote s
  | .list items => "[" ++ String.intercalate "," (compactItems items) ++ "]"
  | .object members => "\x7b" ++ String.intercalate "," (compactMembers members) ++ "\x7d"

def compactItems : List Json → List String
  | [] => []
  | item :: rest => compact item :: compactItems rest

def compactMembers : List (String × Json) → List String
  | [] => []
  | (key, value) :: rest => (quote key ++ ":" ++ compact value) :: compactMembers rest

end

def block (indent : Nat) (opening closing : String) (lines : List String) : String :=
  if lines = [] then
    opening ++ closing
  else
    let inner := "\n" ++ String.ofList (List.replicate (2 * (indent + 1)) ' ')
    let outer := "\n" ++ String.ofList (List.replicate (2 * indent) ' ')
    opening ++ inner ++ String.intercalate ("," ++ inner) lines ++ outer ++ closing

mutual

/-- The value over several lines, where the first one is indented already. -/
def prettyAt (indent : Nat) : Json → String
  | .list items => block indent "[" "]" (prettyItems (indent + 1) items)
  | .object members => block indent "\x7b" "\x7d" (prettyMembers (indent + 1) members)
  | other => other.compact

def prettyItems (indent : Nat) : List Json → List String
  | [] => []
  | item :: rest => prettyAt indent item :: prettyItems indent rest

def prettyMembers (indent : Nat) : List (String × Json) → List String
  | [] => []
  | (key, value) :: rest =>
    (quote key ++ ": " ++ prettyAt indent value) :: prettyMembers indent rest

end

def pretty (value : Json) : String :=
  value.prettyAt 0

end Json

end Turnstile
