import Turnstile.Schema.Compile
import Turnstile.Schema.Definitions

/-!
This module contains the validation of documents against schemas with references.
-/

namespace Turnstile

def CompiledSchema.ofJson (schema : Json) (defs : Definitions) :
    Except SchemaError CompiledSchema := do
  let resolved ← defs.resolve schema
  match Schema.read resolved with
  | .ok schema => return ⟨resolved, schema.check⟩
  | .error reason => .error (.invalidSchema reason)

/--
Holds a document against a schema. A document that does not conform is a result; only a schema that
cannot be used is an error.
-/
def validate (d schema : Json) (defs : Definitions) : Except SchemaError Validation := do
  let compiled ← CompiledSchema.ofJson schema defs
  return compiled.check d

end Turnstile
