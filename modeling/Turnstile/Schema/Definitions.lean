import Turnstile.Schema.Inlining
import Turnstile.Table

/-!
This module contains definitions: schemas by name, to which references lead. Definitions are checked by
resolving each of them.
-/

namespace Turnstile

/-- Named schemas in the order in which their names were first defined. -/
abbrev Definitions := Table Json

namespace Definitions

def find? (defs : Definitions) (target : Reference) : Option Json := do
  let definition ← defs.get? target.name
  definition.pointer? target.pointer

/-- The local definitions come on top: where both define a name, the local one counts. -/
def override (defs : Definitions) (locals : Definitions) : Definitions :=
  defs.insertAll locals.entries

/-- More references than can be followed one inside the other without coming back to one of them. -/
def depthLimit (defs : Definitions) : Nat :=
  defs.entries.foldr (fun (_, schema) count => schema.refCount + count) 1

/-- Follows a reference inside the references of a chain, which it must not belong to. -/
def expand (defs : Definitions) : Nat → List String → Json → Except SchemaError Json
  | limit, chain, reference =>
    match reference with
    | .string text =>
      match Reference.ofText? text with
      | none => .error (.unsupportedRef text)
      | some target =>
        if chain.contains target.canonical then
          .error (.cyclicRef (chain ++ [target.canonical]))
        else
          match defs.find? target, limit with
          | none, _ => .error (.unresolvedRef text)
          | some _, 0 => .error (.cyclicRef (chain ++ [target.canonical]))
          | some fetched, limit + 1 =>
            Schema.inline (expand defs limit (chain ++ [target.canonical])) fetched
    | other => .error (.invalidRef other)

def keywords : List String := ["$defs", "definitions"]

/-- The definitions at the top of a schema, those under `definitions` on top of those under `$defs`. -/
def embedded (schema : Json) : Definitions :=
  .ofList <| keywords.flatMap fun keyword => ((schema.get? keyword).bind Json.members?).getD []

/-- A schema without the definitions at its top. -/
def strip : Json → Json
  | .object members => .object (members.filter fun (key, _) => !keywords.contains key)
  | other => other

/--
Puts the definition that a reference leads to in place of the reference, everywhere in a schema.
Definitions that the schema brings itself come on top of the given ones. A reference with siblings
becomes the conjunction of both.
-/
def resolve (defs : Definitions) (schema : Json) : Except SchemaError Json :=
  if (embedded schema).isEmpty then
    Schema.inline (defs.expand (defs.depthLimit + 1) []) schema
  else
    let scope := defs.override (embedded schema)
    Schema.inline (scope.expand (scope.depthLimit + 1) []) (strip schema)

/-- The names whose definitions do not resolve, each with the reason. -/
def check (defs : Definitions) : List (String × SchemaError) :=
  defs.entries.filterMap fun (name, schema) =>
    match defs.resolve schema with
    | .ok _ => none
    | .error e => some (name, e)

def text : Json := .object [("type", "string")]

def jsonObject : Json := .object [("type", "object")]

def toolCall : Json := .object [
  ("properties", .object [
    ("arguments", .object [("type", "object")]),
    ("name", .object [("minLength", 1), ("type", "string")])]),
  ("required", .list ["name", "arguments"]),
  ("type", "object")]

def toolCalls : Json :=
  let call : Json := .object [("$ref", "#/$defs/tool-call")]
  .object [("anyOf", .list [call, .object [("items", call), ("minItems", 1), ("type", "array")]])]

def toolError : Json := .object [
  ("properties", .object [("error", .object [("type", "string")])]),
  ("required", .list ["error"]),
  ("type", "object")]

def builtin : Definitions := .ofList [
  ("text", text), ("json-object", jsonObject), ("tool-call", toolCall), ("tool-calls", toolCalls),
  ("tool-error", toolError)]

end Definitions

end Turnstile
