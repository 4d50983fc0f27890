import Turnstile.Schema.Definitions
import Turnstile.Tool.Info

/-!
This module contains the schemas of messages to and from tools, made from the catalogue of a server.
-/

namespace Turnstile

namespace Tool

/-- A schema with its own references resolved, so that it can stand inside another schema. -/
def standalone (schema : Json) : Json :=
  match Definitions.resolve {} schema with
  | .ok resolved => resolved
  | .error _ => schema

/-- Accepts what a schema accepts, and lists of it that are not empty. -/
def singleOrList (one : Json) : Json :=
  .object [("anyOf", .list [one,
    .object [("items", one), ("minItems", 1), ("type", "array")]])]

def callSchema (t : Tool) : Json :=
  .object [
    ("properties", .object [("arguments", standalone t.inputSchema),
      ("name", .object [("const", .string t.name)])]),
    ("required", .list ["name", "arguments"]),
    ("type", "object")]

/-- The schema of a call, or a list of calls, of any tool. Without tools there is nothing to call. -/
def requestSchema (tools : List Tool) : Json :=
  if tools.isEmpty then false
  else singleOrList (.object [("oneOf", .list (tools.map callSchema))])

/-- If a schema describes an object with a `result` and nothing else, the schema of this result. -/
def unwrapOutput (schema : Json) : Json :=
  match (schema.get? "properties").bind Json.members? with
  | some [("result", inner)] => inner
  | _ => schema

/-- The output schemas of all tools, if all declare one. -/
def outputs? (tools : List Tool) : Option (List Json) :=
  tools.mapM fun t => t.outputSchema.map fun schema => unwrapOutput (standalone schema)

/--
The schema of a result, or a list of results, of any tool. A tool that does not declare its output may
give anything.
-/
def responseSchema (tools : List Tool) : Json :=
  match outputs? tools with
  | none | some [] => true
  | some outputs => singleOrList (.object [("anyOf", .list outputs)])

end Tool

end Turnstile
