import Turnstile.Schema.Form

/-!
This module contains the keywords of JSON Schema with the forms of their values.
-/

namespace Turnstile

namespace Schema

/-- Keywords whose values are data. What looks like a schema in there is none. -/
def dataKeywords : List String := ["const", "enum", "default", "examples"]

/-- Keywords whose values hold schemas under names that are free to choose. -/
def mapKeywords : List String :=
  ["properties", "patternProperties", "$defs", "definitions", "dependentSchemas"]

namespace Form

open Draft

/-- The forms of the keywords, each with the first and the last draft that has it. -/
def table : List (String × Draft × Draft × Form) :=
  [("$anchor", draft2019, draft2019, anchor [] "-.:_".toList),
    ("$anchor", draft2020, draft2020, anchor ['_'] "-._".toList),
    ("$comment", draft7, draft2020, text),
    ("$defs", draft2019, draft2020, schemaMap),
    ("$dynamicAnchor", draft2020, draft2020, anchor ['_'] "-._".toList),
    ("$dynamicRef", draft2020, draft2020, text),
    ("$id", draft6, draft7, text),
    ("$id", draft2019, draft2020, identifier),
    ("$recursiveAnchor", draft2019, draft2019, flag),
    ("$recursiveAnchor", draft2020, draft2020, anchor ['_'] "-._".toList),
    ("$recursiveRef", draft2019, draft2020, text),
    ("$ref", draft6, draft2020, text),
    ("$schema", draft4, draft2020, text),
    ("$vocabulary", draft2019, draft2020, flags),
    ("additionalItems", draft4, draft4, schemaOrFlag),
    ("additionalItems", draft6, draft2019, schema),
    ("additionalProperties", draft4, draft4, schemaOrFlag),
    ("additionalProperties", draft6, draft2020, schema),
    ("allOf", draft4, draft2020, schemas),
    ("anyOf", draft4, draft2020, schemas),
    ("contains", draft6, draft2020, schema),
    ("contentEncoding", draft7, draft2020, text),
    ("contentMediaType", draft7, draft2020, text),
    ("contentSchema", draft2019, draft2020, schema),
    ("definitions", draft4, draft2020, schemaMap),
    ("dependencies", draft4, draft4, dependencies someNames),
    ("dependencies", draft6, draft2020, dependencies names),
    ("dependentRequired", draft2019, draft2020, nameMap),
    ("dependentSchemas", draft2019, draft2020, schemaMap),
    ("deprecated", draft2019, draft2020, flag),
    ("description", draft4, draft2020, text),
    ("else", draft7, draft2020, schema),
    ("enum", draft4, draft6, choices),
    ("enum", draft7, draft2020, list),
    ("examples", draft6, draft2020, list),
    ("exclusiveMaximum", draft4, draft4, flag),
    ("exclusiveMaximum", draft6, draft2020, number),
    ("exclusiveMinimum", draft4, draft4, flag),
    ("exclusiveMinimum", draft6, draft2020, number),
    ("format", draft4, draft2020, text),
    ("id", draft4, draft4, text),
    ("if", draft7, draft2020, schema),
    ("items", draft4, draft2019, schemaOrSchemas),
    ("items", draft2020, draft2020, schema),
    ("maxContains", draft2019, draft2020, count),
    ("maximum", draft4, draft2020, number),
    ("maxItems", draft4, draft2020, count),
    ("maxLength", draft4, draft2020, count),
    ("maxProperties", draft4, draft2020, count),
    ("minContains", draft2019, draft2020, count),
    ("minimum", draft4, draft2020, number),
    ("minItems", draft4, draft2020, count),
    ("minLength", draft4, draft2020, count),
    ("minProperties", draft4, draft2020, count),
    ("multipleOf", draft4, draft2020, positive),
    ("not", draft4, draft2020, schema),
    ("oneOf", draft4, draft2020, schemas),
    ("pattern", draft4, draft7, pattern),
    ("pattern", draft2019, draft2020, text),
    ("patternProperties", draft4, draft6, schemaMap),
    ("patternProperties", draft7, draft7, patternMap),
    ("patternProperties", draft2019, draft2020, schemaMap),
    ("prefixItems", draft2020, draft2020, schemas),
    ("properties", draft4, draft2020, schemaMap),
    ("propertyNames", draft6, draft2020, schema),
    ("readOnly", draft7, draft2020, flag),
    ("required", draft4, draft4, someNames),
    ("required", draft6, draft2020, names),
    ("then", draft7, draft2020, schema),
    ("title", draft4, draft2020, text),
    ("type", draft4, draft2020, kinds),
    ("unevaluatedItems", draft2019, draft2020, schema),
    ("unevaluatedProperties", draft2019, draft2020, schema),
    ("uniqueItems", draft4, draft2020, flag),
    ("writeOnly", draft7, draft2020, flag)]

/-- The form that a draft asks for. The value of an unknown keyword may be anything. -/
def ofKeyword (draft : Draft) (key : String) : Form :=
  match table.find? fun (name, first, last, _) => name = key && first ≤ draft && draft ≤ last with
  | some (_, _, _, form) => form
  | none => any

end Form

end Schema

end Turnstile
