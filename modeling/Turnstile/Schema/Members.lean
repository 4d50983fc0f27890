import Turnstile.Schema.Content
import Turnstile.Schema.Coverage
import Turnstile.Schema.Keyword

/-!
This module contains the meaning of a schema that is an object: its keywords, one after the other, given
what its subschemas mean. Formats are annotations in all drafts: no document is held against them.
-/

namespace Turnstile

namespace Schema

/--
What the value of a keyword holds by way of subschemas. What is wrong with them matters only to keywords
that make use of them.
-/
inductive Part where
  | plain
  | one (schema : Except String Subschema)
  | many (schemas : Except String (List Subschema))
  | named (schemas : Except String (List (String × Subschema)))

/-- The members of a schema, with the meaning of their subschemas and of references. -/
structure Members where
  draft : Draft
  values : List (String × Json)
  parts : List (String × Part)
  refer : String → Except String Subschema

namespace Members

variable (m : Members)

def has (key : String) : Bool :=
  (m.values.lookup key).isSome

def one (key : String) : Except String Subschema :=
  match m.parts.lookup key with
  | some (.one schema) => schema
  | _ => .error s!"{key} needs a schema"

def many (key : String) : Except String (List Subschema) :=
  match m.parts.lookup key with
  | some (.many schemas) => schemas
  | _ => .error s!"{key} needs a list of schemas"

def named (key : String) : Except String (List (String × Subschema)) :=
  match m.parts.lookup key with
  | some (.named schemas) => schemas
  | some _ => .error s!"{key} needs an object of schemas"
  | none => .ok []

/-- The schema that a keyword refers to, if it is one that refers. -/
def reference? (key : String) (value : Json) : Option (Except String Subschema) :=
  match key with
  | "$ref" => some (m.refer (value.string?.getD ""))
  | "$dynamicRef" => if m.draft = .draft2020 then some (m.refer (value.string?.getD "")) else none
  | "$recursiveRef" => if m.draft = .draft2019 then some (m.refer "#") else none
  | _ => none

def matched : Except String (List (String × Pattern × Subschema)) := do
  (← m.named "patternProperties").mapM fun (text, schema) =>
    match Pattern.ofText? text with
    | some pattern => .ok (text, pattern, schema)
    | none => .error s!"{text} is no pattern"

def checkers (schemas : List (String × Subschema)) : Checker.Named :=
  schemas.map fun (name, schema) => (name, schema.check)

def matchedCheckers (schemas : List (String × Pattern × Subschema)) : Checker.Matched :=
  schemas.map fun (text, pattern, schema) => (text, pattern, schema.check)

/-- The number of items that come before those of `items`. -/
def itemsSkipped : Nat :=
  ((m.values.lookup "prefixItems").bind Json.list?).elim 0 List.length

/-- A schema for additional properties also takes over the properties that are declared. -/
def takesOver : Bool :=
  match m.values.lookup "additionalProperties" with
  | none | some (.bool true) => false
  | some _ => true

def additionalProperties : Except String Checker := do
  let properties := checkers (← m.named "properties")
  let patterns := matchedCheckers (← m.matched)
  match m.values.lookup "additionalProperties" with
  | some (.bool true) => return .always
  | some (.bool false) =>
    if m.has "properties" || m.has "patternProperties" then
      return .closed properties patterns
    else
      return .propertyless
  | _ => return .additional properties patterns (← m.one "additionalProperties").check

def items (key : String) (value : Json) : Except String Checker :=
  match value with
  | .list _ => do return .tuple key ((← m.many key).map Subschema.check)
  | _ => do return .items key m.itemsSkipped (← m.one key).check

/-- Only where `items` lists schemas one by one are there additional items. -/
def additionalItems (value : Json) : Except String Checker :=
  match m.values.lookup "items", value with
  | some (.list schemas), .bool false => .ok (.noAdditionalItems schemas.length)
  | some (.list schemas), .object _ => do
    return .items "additionalItems" schemas.length (← m.one "additionalItems").check
  | _, _ => .ok .always

/-- The elder drafts have no bounds for the number of items that fit. -/
def contains : Except String Checker := do
  let item := (← m.one "contains").check
  let bound (key : String) : Except String (Option Nat) :=
    match m.values.lookup key with
    | none => .ok none
    | some value =>
      match count? value with
      | some n => .ok (some n)
      | none => .error s!"{key} needs a count"
  if .draft2019 ≤ m.draft then
    return .contains item (← bound "minContains") (← bound "maxContains")
  else
    return .contains item none none

/-- A condition without a branch to lead to is not looked at. -/
def conditional : Except String Checker := do
  let branch (key : String) : Except String Checker :=
    if m.has key then Subschema.check <$> m.one key else .ok .always
  if m.has "then" || m.has "else" then
    return .conditional (← m.one "if").check (← branch "then") (← branch "else")
  else
    return .always

/-- What the subschemas under a keyword cover. Those that cannot be used cover nothing. -/
def covered (key : String) (coverage : Subschema → Coverage) : Coverage :=
  match m.parts.lookup key with
  | some (.one (.ok schema)) => coverage schema
  | some (.many (.ok schemas)) => .all (schemas.map coverage)
  | _ => .none

def referred : Coverage :=
  .all <| m.values.map fun (key, value) =>
    match m.reference? key value with
    | some (.ok schema) => schema.coverage
    | _ => .none

def coveredProperties : List Coverage :=
  let properties := (m.named "properties").toOption.getD []
  let patterns := m.matched.toOption.getD []
  let values (s : Subschema) : Coverage := .ofProperty fun _ value => s.accepts value
  [.ofProperty fun name value => (properties.lookup name).any (·.accepts value),
    .ofProperty fun name value => patterns.any fun (_, pattern, s) =>
      pattern.occursIn name && s.accepts value,
    m.covered "additionalProperties" values,
    m.covered "unevaluatedProperties" values]

/-- The items that `contains` finds count only in the latest draft. -/
def coveredItems : List Coverage :=
  let values (s : Subschema) : Coverage := .ofItem fun _ value => s.accepts value
  let first (n : Nat) : Coverage := .ofItem fun i _ => i < n
  let every : Coverage := .ofItem fun _ _ => true
  let listed :=
    match m.values.lookup "items" with
    | some (.list schemas) => if m.has "additionalItems" then every else first schemas.length
    | some _ => every
    | none => .none
  let latest := if m.draft = .draft2020 then [first m.itemsSkipped, m.covered "contains" values] else []
  listed :: m.covered "unevaluatedItems" values :: latest

/-- What the subschemas cover that are held against the same document. -/
def coveredInPlace : List Coverage :=
  let condition (d : Json) : Bool :=
    match m.one "if" with
    | .ok schema => schema.accepts d
    | .error _ => false
  let dependent := (m.named "dependentSchemas").toOption.getD []
  [m.referred,
    .all (dependent.map fun (name, s) => s.coverage.onlyIf fun d => (d.get? name).isSome),
    m.covered "if" Subschema.earned,
    (m.covered "then" Subschema.coverage).onlyIf condition,
    (m.covered "else" Subschema.coverage).onlyIf fun d => !condition d,
    m.covered "allOf" Subschema.earned,
    m.covered "anyOf" Subschema.earned,
    m.covered "oneOf" Subschema.earned]

def coverage : Coverage :=
  .all (m.coveredProperties ++ m.coveredItems ++ m.coveredInPlace)

def isExclusive (key : String) : Bool :=
  m.draft = .draft4 && m.values.lookup key = some (.bool true)

/-- The checker of a keyword, if its value is what the keyword needs. -/
def plain? (key : String) (value : Json) : Option Checker :=
  match key with
  | "type" => (kinds? value).map (.type m.draft)
  | "const" => some (.const value)
  | "enum" => value.list?.map .enum
  | "minimum" => (number? value).map fun limit =>
    if m.isExclusive "exclusiveMinimum" then .exclusiveMinimum limit else .minimum limit
  | "maximum" => (number? value).map fun limit =>
    if m.isExclusive "exclusiveMaximum" then .exclusiveMaximum limit else .maximum limit
  | "exclusiveMinimum" => (number? value).map .exclusiveMinimum
  | "exclusiveMaximum" => (number? value).map .exclusiveMaximum
  | "multipleOf" => (number? value).map fun n => .multipleOf n.toDouble
  | "minLength" => (count? value).map .minLength
  | "maxLength" => (count? value).map .maxLength
  | "pattern" => do
    let text ← value.string?
    return .pattern text (← Pattern.ofText? text)
  | "minItems" => (count? value).map .minItems
  | "maxItems" => (count? value).map .maxItems
  | "uniqueItems" => value.bool?.map fun unique => if unique then .uniqueItems else .always
  | "minProperties" => (count? value).map .minProperties
  | "maxProperties" => (count? value).map .maxProperties
  | "required" => (names? value).map .required
  | "dependentRequired" => do
    let entries ← (← value.members?).mapM fun (name, names) => do return (name, ← names? names)
    return .dependentRequired key entries
  | "contentEncoding" => some (if m.has "contentMediaType" then .always else .contentEncoding value)
  | "contentMediaType" => some (.contentMediaType value (m.values.lookup "contentEncoding"))
  | _ => some .always

def keyword (key : String) (value : Json) : Except String Checker :=
  match key with
  | "$ref" | "$dynamicRef" | "$recursiveRef" =>
    match m.reference? key value with
    | some schema => do return .within [key] (← schema).check
    | none => .ok .always
  | "additionalItems" => m.additionalItems value
  | "additionalProperties" => m.additionalProperties
  | "allOf" => do return .allOf ((← m.many key).map Subschema.check)
  | "anyOf" => do return .anyOf ((← m.many key).map Subschema.check)
  | "oneOf" => do return .oneOf ((← m.many key).map Subschema.check)
  | "not" => do return .not value (← m.one key).check
  | "if" => m.conditional
  | "contains" => m.contains
  | "prefixItems" => do return .tuple key ((← m.many key).map Subschema.check)
  | "items" => m.items key value
  | "properties" => do
    let properties := checkers (← m.named key)
    return if m.takesOver then .always else .properties properties
  | "patternProperties" => do
    let patterns := matchedCheckers (← m.matched)
    return if m.takesOver then .always else .patternProperties patterns
  | "propertyNames" => do
    let names := (← m.one key).check
    return if value = .bool false then .nameless else .propertyNames names
  | "dependentSchemas" => do return .dependentSchemas key (checkers (← m.named key))
  | "dependencies" => do
    let dependencies := checkers (← m.named key)
    return fun d p => dependencies.flatMap fun (name, body) =>
      if (d.get? name).isSome then body d p else []
  | "unevaluatedProperties" => do
    let _ ← m.one key
    return if value = .bool true then .always else .unevaluatedProperties m.coverage
  | "unevaluatedItems" => do
    let _ ← m.one key
    return if value = .bool true then .always else .unevaluatedItems m.coverage
  | key =>
    match m.plain? key value with
    | some checker => .ok checker
    | none => .error s!"{value.compact} is no value for {key}"

def bearing : List (String × Json) :=
  let counted := m.values.filter fun (key, _) => m.draft.counts key
  if m.draft.isolatesReferences && m.has "$ref" then counted.filter fun (key, _) => key = "$ref"
  else counted

/-- All keywords together, in the order of the members. -/
def subschema : Except String Subschema := do
  let checkers ← m.bearing.mapM fun (key, value) => m.keyword key value
  return ⟨.all checkers, m.coverage⟩

end Members

end Schema

end Turnstile
