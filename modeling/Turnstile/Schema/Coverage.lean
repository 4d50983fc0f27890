import Turnstile.Schema.Checker

/-!
This module contains what schemas look at in a document, and the keywords that are about all that is left.
-/

namespace Turnstile

/-- The properties and items of a document that a schema has looked at and found right. -/
structure Coverage where
  property : Json → String → Json → Bool
  item : Json → Nat → Json → Bool

namespace Coverage

def none : Coverage :=
  ⟨fun _ _ _ => false, fun _ _ _ => false⟩

def ofProperty (covers : String → Json → Bool) : Coverage :=
  { none with property := fun _ => covers }

def ofItem (covers : Nat → Json → Bool) : Coverage :=
  { none with item := fun _ => covers }

def all (coverages : List Coverage) : Coverage :=
  ⟨fun d name value => coverages.any fun c => c.property d name value,
    fun d i value => coverages.any fun c => c.item d i value⟩

/-- A schema that has a bearing only on some documents covers nothing in others. -/
def onlyIf (condition : Json → Bool) (c : Coverage) : Coverage :=
  ⟨fun d name value => condition d && c.property d name value,
    fun d i value => condition d && c.item d i value⟩

end Coverage

structure Subschema where
  check : Checker
  coverage : Coverage

namespace Subschema

def accepts (s : Subschema) (d : Json) : Bool :=
  s.check.accepts d

/-- A schema covers nothing in a document that it does not accept. -/
def earned (s : Subschema) : Coverage :=
  s.coverage.onlyIf s.accepts

end Subschema

namespace Checker

def unevaluatedProperties (coverage : Coverage) : Checker := fun d p =>
  match d with
  | .object members =>
    let left := members.filter fun (name, value) => !coverage.property d name value
    if left.isEmpty then []
    else
      [(p.under "unevaluatedProperties").violation <| "Unevaluated properties are not allowed " ++
        unexpected (left.map fun (name, _) => "'" ++ name ++ "'")]
  | _ => []

def unevaluatedItems (coverage : Coverage) : Checker := fun d p =>
  match d with
  | .list values =>
    let left := values.zipIdx.filter fun (value, i) => !coverage.item d i value
    if left.isEmpty then []
    else
      [(p.under "unevaluatedItems").violation <| "Unevaluated items are not allowed " ++
        unexpected (left.map fun (value, _) => "'" ++ value.compact ++ "'")]
  | _ => []

end Checker

end Turnstile
