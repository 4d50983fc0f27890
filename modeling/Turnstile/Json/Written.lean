import Turnstile.Json.Basic

/-!
This module contains documents as they are written: as far as their text can be read, with the places
at which it goes wrong. A reader that looks for certain parts finds the first thing that is wrong with
what it needs, and passes over the rest.
-/

namespace Turnstile

inductive Written where
  | null
  | bool (value : Bool)
  | number (value : Number)
  | string (value : String)
  | list (items : List Written)
  /-- A key can be unusable, too. -/
  | object (members : List (Option String × Written))
  /--
  A value that is written in due form but stands for nothing: a number out of range, half a surrogate
  pair in a string, or containers that are nested too deeply.
  -/
  | unusable
  | broken

namespace Written

instance : Inhabited Written := ⟨.null⟩

mutual

def isComplete : Written → Bool
  | .list items => areComplete items
  | .object members => haveComplete members
  | .broken => false
  | _ => true

def areComplete : List Written → Bool
  | [] => true
  | item :: rest => isComplete item && areComplete rest

def haveComplete : List (Option String × Written) → Bool
  | [] => true
  | (_, value) :: rest => isComplete value && haveComplete rest

end

mutual

/-- The value, if all of it can be used. Objects keep their members as they are written. -/
def json? : Written → Option Json
  | .null => some .null
  | .bool value => some (.bool value)
  | .number value => some (.number value)
  | .string value => some (.string value)
  | .list items => (jsonItems? items).map .list
  | .object members => (jsonMembers? members).map .object
  | .unusable | .broken => none

def jsonItems? : List Written → Option (List Json)
  | [] => some []
  | item :: rest => do return (← json? item) :: (← jsonItems? rest)

def jsonMembers? : List (Option String × Written) → Option (List (String × Json))
  | [] => some []
  | (key, value) :: rest => do return (← key, ← json? value) :: (← jsonMembers? rest)

end

def isNull : Written → Bool
  | .null => true
  | _ => false

def string? : Written → Option String
  | .string value => some value
  | _ => none

def bool? : Written → Option Bool
  | .bool value => some value
  | _ => none

def number? : Written → Option Number
  | .number value => some value
  | _ => none

def list? : Written → Option (List Written)
  | .list items => some items
  | _ => none

end Written

namespace Json

mutual

def written : Json → Written
  | .null => .null
  | .bool value => .bool value
  | .number value => .number value
  | .string value => .string value
  | .list items => .list (writtenItems items)
  | .object members => .object (writtenMembers members)

def writtenItems : List Json → List Written
  | [] => []
  | item :: rest => written item :: writtenItems rest

def writtenMembers : List (String × Json) → List (Option String × Written)
  | [] => []
  | (key, value) :: rest => (some key, written value) :: writtenMembers rest

end

end Json

end Turnstile
