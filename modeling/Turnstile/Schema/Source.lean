import Turnstile.Json.Record
import Turnstile.Schema.Reference

/-!
This module contains the three places from which the schema of a transition can come.
-/

namespace Turnstile

inductive SchemaSource where
  /-- The schema itself, perhaps with references in it. -/
  | literal (schema : Json)
  | named (name : String)
  | provided (key : String)
  deriving DecidableEq

namespace SchemaSource

instance : Inhabited SchemaSource := ⟨.literal (.bool true)⟩

def any : SchemaSource :=
  .literal (.bool true)

def referTo (name : String) : Json :=
  .object [("$ref", .string (String.ofList (Reference.defsStart ++ name.toList)))]

/-- The definition that a schema refers to, if it is nothing but a reference to a whole definition. -/
def referredName? : Json → Option String
  | .object [("$ref", .string reference)] =>
    match Reference.after? Reference.defsStart reference.toList with
    | some name => if name = [] || name.contains '/' then none else some (String.ofList name)
    | none => none
  | _ => none

/-- A string is a key, a plain reference a name, and all else a schema. -/
def ofJson (value : Json) : SchemaSource :=
  match value with
  | .string key => .provided key
  | value =>
    match referredName? value with
    | some name => .named name
    | none => .literal value

def toJson : SchemaSource → Json
  | .literal schema => schema
  | .named name => referTo name
  | .provided key => .string key

/-- The schema, unless it is known only to a provider. -/
def static? : SchemaSource → Option Json
  | .literal schema => some schema
  | .named name => some (referTo name)
  | .provided _ => none

def isProvided : SchemaSource → Bool
  | .provided _ => true
  | _ => false

instance : Document SchemaSource where
  encode := toJson
  decode value := ofJson <$> Document.decode value

end SchemaSource

end Turnstile
