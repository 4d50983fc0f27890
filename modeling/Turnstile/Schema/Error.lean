import Turnstile.Json.Printer

/-!
This module contains the ways in which a schema can be unusable.
-/

namespace Turnstile

inductive SchemaError where
  | unresolvedRef (reference : String)
  | cyclicRef (chain : List String)
  | unsupportedRef (reference : String)
  /-- A reference that is not a string. -/
  | invalidRef (reference : Json)
  /-- The schema without references is not a JSON Schema. -/
  | invalidSchema (reason : String)
  deriving DecidableEq

namespace SchemaError

def message : SchemaError → String
  | unresolvedRef reference => s!"Unresolved reference: {reference}"
  | cyclicRef chain => "Cyclic reference: " ++ String.intercalate " -> " chain
  | unsupportedRef reference => s!"Unsupported reference: {reference}"
  | invalidRef reference => s!"Invalid reference: {reference.compact}"
  | invalidSchema reason => s!"Invalid schema: {reason}"

instance : ToString SchemaError := ⟨message⟩

end SchemaError

end Turnstile
