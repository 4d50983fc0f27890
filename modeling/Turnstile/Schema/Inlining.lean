import Turnstile.Schema.Error
import Turnstile.Schema.Keyword
import Turnstile.Schema.Reference

/-!
This module contains the places of a schema at which subschemas stand, and the two ways to go through
them: listing the references that are found there, and putting other schemas in their place.
-/

namespace Turnstile

namespace Schema

mutual

/-- The references at the schema places of a value, from left to right. -/
def refs : Json → List String
  | .object members => memberRefs members
  | _ => []

def memberRefs : List (String × Json) → List String
  | [] => []
  | (key, value) :: rest =>
    (if key = "$ref" then value.string?.toList else valueRefs key value) ++ memberRefs rest

def valueRefs (key : String) : Json → List String
  | .object entries =>
    if dataKeywords.contains key then []
    else if mapKeywords.contains key then entryRefs entries
    else memberRefs entries
  | .list items => if dataKeywords.contains key then [] else itemRefs items
  | _ => []

def entryRefs : List (String × Json) → List String
  | [] => []
  | (_, schema) :: rest => refs schema ++ entryRefs rest

def itemRefs : List Json → List String
  | [] => []
  | schema :: rest => refs schema ++ itemRefs rest

end

/--
Puts an object together from its members and from what is left of them without the reference. If a
reference has siblings, both together take its place.
-/
def join (expand : Json → Except SchemaError Json) (members : List (String × Json))
    (siblings : Except SchemaError (List (String × Json))) : Except SchemaError Json :=
  match members.lookup "$ref" with
  | none => Json.object <$> siblings
  | some reference => do
    let target ← expand reference
    match ← siblings with
    | [] => return target
    | siblings => return .object [("allOf", .list [target, .object siblings])]

mutual

/-- Replaces each reference at a schema place by what `expand` gives for it. -/
def inline (expand : Json → Except SchemaError Json) : Json → Except SchemaError Json
  | .object members => join expand members (inlineMembers expand members)
  | other => .ok other

/-- The members without the reference among them. -/
def inlineMembers (expand : Json → Except SchemaError Json) :
    List (String × Json) → Except SchemaError (List (String × Json))
  | [] => .ok []
  | (key, value) :: rest =>
    if key = "$ref" then
      inlineMembers expand rest
    else do
      let inlined ← inlineValue expand key value
      return (key, inlined) :: (← inlineMembers expand rest)

/-- The value of a keyword: data, schemas by name, a list of schemas, or a schema. -/
def inlineValue (expand : Json → Except SchemaError Json) (key : String) :
    Json → Except SchemaError Json
  | .object entries =>
    if dataKeywords.contains key then
      .ok (.object entries)
    else if mapKeywords.contains key then
      Json.object <$> inlineEntries expand entries
    else
      join expand entries (inlineMembers expand entries)
  | .list items =>
    if dataKeywords.contains key then .ok (.list items) else Json.list <$> inlineItems expand items
  | other => .ok other

def inlineEntries (expand : Json → Except SchemaError Json) :
    List (String × Json) → Except SchemaError (List (String × Json))
  | [] => .ok []
  | (name, schema) :: rest => do
    let inlined ← inline expand schema
    return (name, inlined) :: (← inlineEntries expand rest)

def inlineItems (expand : Json → Except SchemaError Json) :
    List Json → Except SchemaError (List Json)
  | [] => .ok []
  | schema :: rest => do
    let inlined ← inline expand schema
    return inlined :: (← inlineItems expand rest)

end

end Schema

mutual

/-- The number of members with the key `$ref` in a value, at any place. -/
def Json.refCount : Json → Nat
  | .list items => Json.itemsRefCount items
  | .object members => Json.membersRefCount members
  | _ => 0

def Json.itemsRefCount : List Json → Nat
  | [] => 0
  | item :: rest => item.refCount + Json.itemsRefCount rest

def Json.membersRefCount : List (String × Json) → Nat
  | [] => 0
  | (key, value) :: rest =>
    (if key = "$ref" then 1 else 0) + value.refCount + Json.membersRefCount rest

end

end Turnstile
