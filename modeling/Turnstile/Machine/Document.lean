import Turnstile.Error
import Turnstile.Json.Printer
import Turnstile.Machine.Basic

/-!
This module contains the documents of machines and of their parts. Optional parts are left out when they
are absent, and lists when they are empty.
-/

namespace Turnstile

open Document Fields Json

namespace HatDecl

/-- A string is a bare name. An object with one member is a name with its configuration. -/
def ofJson (value : Json) : Except Fault HatDecl :=
  match value with
  | .string name => .ok (bare name)
  | .object [(name, config)] => .ok ⟨name, config⟩
  | other => .error <| .refused <|
    s!"hat declaration must be a name or a single-key map, got {other.compact}"

def toJson (hat : HatDecl) : Json :=
  if hat.config.isNull then .string hat.name else .object [(hat.name, hat.config)]

instance : Document HatDecl where
  encode := toJson
  decode value := do ofJson (← decode value)

end HatDecl

instance : Document State where
  encode s := .object <|
    [("id", encode s.id)] ++ optionalMember "action" s.action ++
      memberUnless s.hats.isEmpty "hats" s.hats ++
      memberUnless s.prompts.isEmpty "prompts" s.prompts ++
      optionalMember "description" s.description
  decode := Fields.decode <| State.mk <$> required "id" <*> optional "action" <*>
    defaulted "hats" [] <*> defaulted "prompts" [] <*> optional "description"

instance : Document Transition where
  encode t := .object <|
    [("id", encode t.id), ("schema", encode t.schema)] ++
      optionalMember "description" t.description
  decode := Fields.decode <| Transition.mk <$> required "id" <*> defaulted "schema" .any <*>
    optional "description"

instance : Document Machine where
  encode m := .object <|
    [("id", encode m.id), ("version", encode m.version)] ++
      optionalMember "description" m.description ++
      [("states", encode m.states), ("xitions", encode m.transitions)] ++
      memberUnless m.schemas.isEmpty "schemas" m.schemas ++
      memberUnless m.hats.isEmpty "hats" m.hats
  decode := Fields.decode <| Machine.mk <$> required "id" <*> required "version" <*>
    optional "description" <*> defaulted "states" [] <*> defaulted "xitions" [] <*>
    defaulted "schemas" {} <*> defaulted "hats" {}

namespace Machine

def ofText (text : String) : Except CommonError Machine :=
  (Document.ofText text).mapError fun fault => .invalidEncoding fault.reason

/-- The text of a machine, indented. -/
def pretty (m : Machine) : String :=
  (encode m).pretty

end Machine

end Turnstile
