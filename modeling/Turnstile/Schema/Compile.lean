import Turnstile.Json.Inspect
import Turnstile.Json.Pointer
import Turnstile.Schema.Conformity
import Turnstile.Schema.Members

/-!
This module contains the reading of JSON Schemas into checkers. Schemas that break the rules of their
draft, for instance by a negative length or by a pattern that is none, are refused.
-/

namespace Turnstile

namespace Subschema

def always : Subschema :=
  ⟨.always, .none⟩

/-- Accepts no document. -/
def never : Subschema :=
  ⟨.never, .none⟩

/-- A schema that is only read when a document is held against it. -/
def postponed (read : Unit → Except String Subschema) : Subschema :=
  let schema (_ : Unit) : Subschema := (read ()).toOption.getD always
  ⟨fun d p => (schema ()).check d p,
    ⟨fun d name value => (schema ()).coverage.property d name value,
      fun d i value => (schema ()).coverage.item d i value⟩⟩

end Subschema

namespace Schema

def oneKeywords : List String :=
  ["additionalItems", "additionalProperties", "contains", "else", "if", "items", "not",
    "propertyNames", "then", "unevaluatedItems", "unevaluatedProperties"]

def manyKeywords : List String := ["allOf", "anyOf", "items", "oneOf", "prefixItems"]

def namedKeywords : List String := ["dependentSchemas", "patternProperties", "properties"]

mutual

/--
Reads a schema, given what references lead to. A schema that names no draft follows the one around it.
-/
def compile (refer : String → Except String Subschema) (draft : Draft) :
    Json → Except String Subschema
  | .bool true => .ok .always
  | .bool false => .ok .never
  | .object members =>
    let draft := (Draft.ofSchema? draft (.object members)).getD .latest
    Members.subschema ⟨draft, members, compileMembers refer draft members, refer⟩
  | other => .error s!"{other.compact} is neither an object nor a boolean"

def compileMembers (refer : String → Except String Subschema) (draft : Draft) :
    List (String × Json) → List (String × Part)
  | [] => []
  | (key, value) :: rest =>
    let part :=
      match value with
      | .list items =>
        if manyKeywords.contains key then .many (compileItems refer draft items) else .plain
      | .object entries =>
        if namedKeywords.contains key then .named (compileEntries refer draft entries)
        else if key = "dependencies" then .named (compileDependencies refer draft entries)
        else if oneKeywords.contains key then .one (compile refer draft (.object entries))
        else .plain
      | value => if oneKeywords.contains key then .one (compile refer draft value) else .plain
    (key, part) :: compileMembers refer draft rest

def compileItems (refer : String → Except String Subschema) (draft : Draft) :
    List Json → Except String (List Subschema)
  | [] => .ok []
  | schema :: rest => do
    let first ← compile refer draft schema
    return first :: (← compileItems refer draft rest)

def compileEntries (refer : String → Except String Subschema) (draft : Draft) :
    List (String × Json) → Except String (List (String × Subschema))
  | [] => .ok []
  | (name, schema) :: rest => do
    let first ← compile refer draft schema
    return (name, first) :: (← compileEntries refer draft rest)

def compileDependencies (refer : String → Except String Subschema) (draft : Draft) :
    List (String × Json) → Except String (List (String × Subschema))
  | [] => .ok []
  | (name, value) :: rest => do
    let first : Subschema ←
      match names? value with
      | some names => .ok ⟨.within ["dependencies"] (.missing names), .none⟩
      | none => do
        let schema ← compile refer draft value
        pure ⟨.within ["dependencies", name] schema.check, schema.coverage⟩
    return (name, first) :: (← compileDependencies refer draft rest)

end

mutual

/-- The first schema that goes by a name. -/
def anchored? (name : String) : Json → Option Json
  | .object members =>
    let isAnchor (key : String) : Bool := members.lookup key = some (.string name)
    if isAnchor "$anchor" || isAnchor "$dynamicAnchor" then some (.object members)
    else anchoredMember? name members
  | .list items => anchoredItem? name items
  | _ => none

def anchoredMember? (name : String) : List (String × Json) → Option Json
  | [] => none
  | (_, value) :: rest => (anchored? name value).or (anchoredMember? name rest)

def anchoredItem? (name : String) : List Json → Option Json
  | [] => none
  | item :: rest => (anchored? name item).or (anchoredItem? name rest)

end

/-- The part of a schema that a reference within it leads to: itself, a pointer or a name. -/
def locate? (root : Json) (reference : String) : Option Json :=
  match reference.toList with
  | [] | ['#'] => some root
  | '#' :: '/' :: pointer => root.pointer? (String.ofList ('/' :: pointer))
  | '#' :: name => anchored? (String.ofList name) root
  | _ => none

/--
Reads what a reference within a schema leads to. A reference that comes back to itself is read again
whenever a document is held against it, as long as there is fuel.
-/
def follow (root : Json) (draft : Draft) :
    Nat → List String → String → Except String Subschema
  | 0, _, reference => .error s!"{reference} leads too far"
  | n + 1, followed, reference =>
    match locate? root reference with
    | none => .error s!"{reference} leads nowhere"
    | some target =>
      if followed.contains reference then
        .ok (.postponed fun _ => compile (follow root draft n []) draft target)
      else
        compile (follow root draft n (reference :: followed)) draft target

/--
Reads a schema whose references to definitions have been resolved. The fuel is enough to follow every
reference at every level of a document.
-/
def read (schema : Json) : Except String Subschema :=
  match Draft.ofSchema? .latest schema with
  | none => .error "the draft is unknown"
  | some draft =>
    if conforms draft schema then
      compile (follow schema draft (128 * schema.compact.length) []) draft schema
    else
      .error "the schema does not have the form that its draft asks for"

end Schema

/-- A schema made ready for use: without references, and read. -/
structure CompiledSchema where
  resolved : Json
  checker : Checker

namespace CompiledSchema

/-- The violations of a document, if there are any. -/
def check (schema : CompiledSchema) (d : Json) : Validation :=
  .ofViolations (schema.checker d .root)

def inspect (schema : CompiledSchema) : String :=
  described "CompiledSchema" [("resolved", schema.resolved.inspect)] true

end CompiledSchema

end Turnstile
