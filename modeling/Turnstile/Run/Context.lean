import Turnstile.Json.Inspect
import Turnstile.Machine.Edge
import Turnstile.Table

/-!
This module contains contexts: the environment that is handed through hats and actions. A context is a
value; what a hat or an action adds to it is seen only by those that get the new context.
-/

namespace Turnstile

/-- What a program puts into contexts besides the things that belong to this library. -/
structure Extension where
  Action : Type
  /-- Is an action invoked again, with the rejection, when its event is rejected? -/
  retries : Action → Bool
  Provider : Type
  Hook : Type
  Value : Type

structure BridgeRef where
  index : Nat
  deriving DecidableEq, Repr

structure ToolSession where
  state : StateId
  bridge : BridgeRef
  deriving DecidableEq

inductive Action (E : Extension) where
  | echo
  | tool (state : StateId)
  | custom (action : E.Action)

namespace Action

def retries {E : Extension} : Action E → Bool
  | echo | tool _ => false
  | custom action => E.retries action

end Action

inductive Direction where
  | request
  | response
  deriving DecidableEq, Repr

inductive Provider (E : Extension) where
  /-- Describes messages to or from the tools of the session with the given key. -/
  | catalogue (session : String) (direction : Direction)
  | custom (provider : E.Provider)

inductive HatState (E : Extension) where
  | session (session : ToolSession)
  | custom (value : E.Value)

inductive Release (E : Extension) where
  | bridge (bridge : BridgeRef)
  | custom (hook : E.Hook)

structure StopHook (E : Extension) where
  name : String
  release : Release E

structure Context (E : Extension) where
  actions : Table (Action E)
  providers : Table (Provider E)
  hatState : Table (HatState E)
  /-- In the order of registration. -/
  stopHooks : List (StopHook E)
  /-- Free entries, sorted by name. -/
  data : List (String × Json)

namespace Context

variable {E : Extension}

def empty : Context E :=
  ⟨{}, {}, {}, [], []⟩

instance : EmptyCollection (Context E) := ⟨empty⟩

instance : Inhabited (Context E) := ⟨empty⟩

def addAction (c : Context E) (name : String) (action : Action E) : Context E :=
  { c with actions := c.actions.insert name action }

def addProvider (c : Context E) (key : String) (provider : Provider E) : Context E :=
  { c with providers := c.providers.insert key provider }

def addStopHook (c : Context E) (hook : StopHook E) : Context E :=
  { c with stopHooks := c.stopHooks ++ [hook] }

def setHatState (c : Context E) (key : String) (state : HatState E) : Context E :=
  { c with hatState := c.hatState.insert key state }

def removeHatState (c : Context E) (key : String) : Context E :=
  { c with hatState := c.hatState.erase key }

def setData (c : Context E) (name : String) (value : Json) : Context E :=
  { c with data := Json.setMember name value c.data }

def data? (c : Context E) (name : String) : Option Json :=
  c.data.lookup name

def action? (c : Context E) (name : String) : Option (Action E) :=
  c.actions.get? name

def hasAction (c : Context E) (name : String) : Bool :=
  c.actions.contains name

def provider? (c : Context E) (key : String) : Option (Provider E) :=
  c.providers.get? key

/-- The tool session under a key, if a session is what is stored there. -/
def session? (c : Context E) (key : String) : Option ToolSession :=
  match c.hatState.get? key with
  | some (.session session) => some session
  | _ => none

/-- What a program has stored under a key, if it is not something of this library. -/
def value? (c : Context E) (key : String) : Option E.Value :=
  match c.hatState.get? key with
  | some (.custom value) => some value
  | _ => none

def inspect (c : Context E) : String :=
  let names (keys : List String) := bracketed (keys.map quoted)
  described "Context"
    [("actions", names c.actions.keys), ("providers", names c.providers.keys),
      ("hat_state", names c.hatState.keys), ("stop_hooks", names (c.stopHooks.map (·.name))),
      ("data", braced (c.data.map fun (name, value) => (name, value.inspect)))]
    false

end Context

end Turnstile
