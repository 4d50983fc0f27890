import Turnstile.Machine.Edge
import Turnstile.Schema.Definitions
import Turnstile.Schema.Source

/-!
This module contains machines: states, the transitions between them with the schemas of what may cross
them, definitions for these schemas, and the hats that states wear.
-/

namespace Turnstile

/-- A hat that a state wears, with its configuration. -/
structure HatDecl where
  name : String
  config : Json
  deriving DecidableEq

namespace HatDecl

def bare (name : String) : HatDecl :=
  ⟨name, .null⟩

end HatDecl

structure State where
  id : StateId
  /-- The action that is invoked when an event enters the state. -/
  action : Option String
  hats : List HatDecl
  prompts : List String
  description : Option String
  deriving DecidableEq

namespace State

def new (id : StateId) : State :=
  ⟨id, none, [], [], none⟩

end State

structure Transition where
  id : Edge
  /-- Where the schema for the messages of crossing events comes from. -/
  schema : SchemaSource
  description : Option String
  deriving DecidableEq

namespace Transition

def new (source target : StateId) : Transition :=
  ⟨⟨source, target⟩, .any, none⟩

end Transition

structure Machine where
  id : String
  version : String
  description : Option String
  states : List State
  transitions : List Transition
  schemas : Definitions
  /-- The states that wear a hat, for each hat that the machine puts on states. -/
  hats : Table (List StateId)
  deriving DecidableEq

namespace Machine

def new (id version : String) : Machine :=
  ⟨id, version, none, [], [], {}, {}⟩

def addState (m : Machine) (state : State) : Machine :=
  { m with states := m.states ++ [state] }

def addTransition (m : Machine) (transition : Transition) : Machine :=
  { m with transitions := m.transitions ++ [transition] }

/-- The first state with an identifier. -/
def state? (m : Machine) (id : StateId) : Option State :=
  m.states.find? (·.id = id)

/-- The first transition with an identifier. -/
def transition? (m : Machine) (id : Edge) : Option Transition :=
  m.transitions.find? (·.id = id)

def transitionsFrom (m : Machine) (id : StateId) : List Transition :=
  m.transitions.filter (·.id.source = id)

def transitionsInto (m : Machine) (id : StateId) : List Transition :=
  m.transitions.filter (·.id.target = id)

/-- Adds prompt lines to the first state of a list that has the identifier. -/
def promptFirst (id : StateId) (lines : List String) : List State → List State
  | [] => []
  | state :: rest =>
    if state.id = id then { state with prompts := state.prompts ++ lines } :: rest
    else state :: promptFirst id lines rest

def addPrompts (m : Machine) (id : StateId) (lines : List String) : Machine :=
  { m with states := promptFirst id lines m.states }

/-- The definitions that schemas of the machine can refer to: its own on top of the built-in ones. -/
def definitions (m : Machine) : Definitions :=
  Definitions.builtin.override m.schemas

end Machine

end Turnstile
