import Turnstile.Schema.Kind

/-!
This module contains the drafts of JSON Schema. A schema names its draft by an address; one that names
none follows the latest draft.
-/

namespace Turnstile

namespace Schema

/-- The drafts, from the eldest to the latest one. -/
inductive Draft where
  | draft4 | draft6 | draft7 | draft2019 | draft2020
  deriving DecidableEq, Repr

namespace Draft

def all : List Draft := [draft4, draft6, draft7, draft2019, draft2020]

def latest : Draft := draft2020

def position : Draft → Nat
  | draft4 => 0
  | draft6 => 1
  | draft7 => 2
  | draft2019 => 3
  | draft2020 => 4

instance : LE Draft := ⟨fun a b => a.position ≤ b.position⟩

instance (a b : Draft) : Decidable (a ≤ b) :=
  inferInstanceAs (Decidable (a.position ≤ b.position))

def address : Draft → String
  | draft4 => "http://json-schema.org/draft-04/schema"
  | draft6 => "http://json-schema.org/draft-06/schema"
  | draft7 => "http://json-schema.org/draft-07/schema"
  | draft2019 => "https://json-schema.org/draft/2019-09/schema"
  | draft2020 => "https://json-schema.org/draft/2020-12/schema"

/-- An address may end with an empty fragment. -/
def ofAddress? (address : String) : Option Draft :=
  let bare := String.ofList (address.toList.reverse.dropWhile (· = '#')).reverse
  all.find? (·.address = bare)

/-- The draft that a schema names, or else the one around it. There is none if the name is unknown. -/
def ofSchema? (outer : Draft) (schema : Json) : Option Draft :=
  match schema.get? "$schema" with
  | some (.string address) => ofAddress? address
  | _ => some outer

/-- In the eldest draft a number with a point or an exponent is no integer. -/
def holds (draft : Draft) (kind : Kind) (d : Json) : Bool :=
  match draft, kind, d with
  | draft4, .integer, .number (.real _) => false
  | _, kind, d => kind.holds d

def counts (draft : Draft) (key : String) : Bool :=
  match key with
  | "const" | "contains" | "propertyNames" => draft6 ≤ draft
  | "if" => draft7 ≤ draft
  | "dependentRequired" | "dependentSchemas" | "unevaluatedItems" | "unevaluatedProperties" =>
    draft2019 ≤ draft
  | "prefixItems" | "$dynamicRef" => draft = draft2020
  | "$recursiveRef" => draft = draft2019
  | "contentEncoding" | "contentMediaType" => draft = draft6 || draft = draft7
  | "exclusiveMinimum" | "exclusiveMaximum" => draft6 ≤ draft
  | _ => true

/-- Where a schema has a reference, the elder drafts look at nothing else. -/
def isolatesReferences (draft : Draft) : Bool :=
  draft ≤ draft7

end Draft

end Schema

end Turnstile
