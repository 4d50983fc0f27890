import Turnstile.Json.Basic

/-!
This module contains the types of documents that JSON Schema tells apart.
-/

namespace Turnstile

namespace Schema

/-- The types, in the order in which messages list them. -/
inductive Kind where
  | array | boolean | integer | null | number | object | string
  deriving DecidableEq

namespace Kind

def all : List Kind := [array, boolean, integer, null, number, object, string]

def name : Kind → String
  | array => "array"
  | boolean => "boolean"
  | integer => "integer"
  | null => "null"
  | number => "number"
  | object => "object"
  | string => "string"

def ofName? (name : String) : Option Kind :=
  all.find? (·.name = name)

/-- A number without a fractional part is an integer however it is written. -/
def holds : Kind → Json → Bool
  | array, .list _ => true
  | boolean, .bool _ => true
  | integer, .number n => n.isInteger
  | null, .null => true
  | number, .number _ => true
  | object, .object _ => true
  | string, .string _ => true
  | _, _ => false

end Kind

end Schema

end Turnstile
