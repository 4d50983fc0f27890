import Turnstile.Json.Basic
import Turnstile.Text.Quoted

/-!
This module contains descriptions of JSON values for developers, in which the kind of each value is
named.
-/

namespace Turnstile

namespace Json

mutual

def inspect : Json → String
  | .null => "Null"
  | .bool value => s!"Bool({value})"
  | .number n => s!"Number({n.text})"
  | .string s => s!"String({quoted s})"
  | .list items => "Array " ++ bracketed (inspectItems items)
  | .object members => "Object " ++ braced (inspectMembers members)

def inspectItems : List Json → List String
  | [] => []
  | item :: rest => inspect item :: inspectItems rest

def inspectMembers : List (String × Json) → List (String × String)
  | [] => []
  | (key, value) :: rest => (key, inspect value) :: inspectMembers rest

end

end Json

end Turnstile
