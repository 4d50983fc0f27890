import Turnstile.Machine.Edge

/-!
This module contains events, which ask to cross a transition with a message.
-/

namespace Turnstile

open Document Fields

/--
An event. The message is held against the schema of the transition; further fields are carried along as
they are.
-/
structure Event where
  edge : Edge
  message : Json
  /-- Further fields, sorted by name. -/
  extra : List (String × Json)
  deriving DecidableEq

namespace Event

instance : Inhabited Event := ⟨⟨default, .null, []⟩⟩

def new (edge : Edge) (message : Json) : Event :=
  ⟨edge, message, []⟩

def withField (e : Event) (name : String) (value : Json) : Event :=
  { e with extra := Json.setMember name value e.extra }

def field? (e : Event) (name : String) : Option Json :=
  e.extra.lookup name

/-- Members that are not carried along. -/
def isOwn (name : String) : Bool :=
  name == "id" || name == "message"

/-- The fields that every event has. -/
def own : Fields Event :=
  new <$> required "id" <*> defaulted "message" .null

instance : Document Event where
  encode e := .object ([("id", encode e.edge), ("message", e.message)] ++ e.extra)
  decode
    | .object members => do
      let event ← Fields.decode own (.object members)
      let extra ← require (Written.jsonMembers? (members.filter fun (name, _) => !name.any isOwn))
      return { event with extra := Json.normalizeMembers extra }
    | _ => .error .malformed

end Event

end Turnstile
