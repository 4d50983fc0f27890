import Turnstile.Machine.Basic

/-!
This module contains the check of machines before they are run. It reports everything that is wrong, not
only the first thing.
-/

namespace Turnstile

inductive DefinitionError where
  | duplicateState (state : StateId)
  | duplicateTransition (edge : Edge)
  | unknownState (edge : Edge) (state : StateId)
  | unknownHatTarget (hat : String) (state : StateId)
  | brokenDefinition (name : String) (error : SchemaError)
  | brokenSchema (edge : Edge) (error : SchemaError)
  deriving DecidableEq

namespace DefinitionError

def message : DefinitionError → String
  | duplicateState state => s!"Duplicate state: {state}"
  | duplicateTransition edge => s!"Duplicate xition: {edge}"
  | unknownState edge state => s!"Xition {edge} names unknown state {state}"
  | unknownHatTarget hat state => s!"Hat {hat} targets unknown state {state}"
  | brokenDefinition name error => s!"Schema definition {name} is broken: {error}"
  | brokenSchema edge error => s!"Schema of xition {edge} is broken: {error}"

instance : ToString DefinitionError := ⟨message⟩

end DefinitionError

namespace Machine

def knows (m : Machine) (id : StateId) : Bool :=
  id.isSentinel || m.states.any (·.id = id)

/-- One error for each element that occurs before. -/
def repeated [DecidableEq α] (error : α → ε) (seen : List α) : List α → List ε
  | [] => []
  | a :: rest =>
    (if a ∈ seen then [error a] else []) ++ repeated error (a :: seen) rest

/-- The errors of the names in each transition, in the order of the transitions. -/
def edgeErrors (m : Machine) (seen : List Edge) : List Transition → List DefinitionError
  | [] => []
  | t :: rest =>
    (if t.id ∈ seen then [.duplicateTransition t.id] else []) ++
      ([t.id.source, t.id.target].filter (!m.knows ·)).map (.unknownState t.id) ++
      edgeErrors m (t.id :: seen) rest

def hatErrors (m : Machine) : List DefinitionError :=
  m.hats.entries.flatMap fun (hat, targets) =>
    (targets.filter (!m.knows ·)).map (.unknownHatTarget hat)

/-- The schemas that can be resolved without a provider have to resolve. -/
def schemaErrors (m : Machine) : List DefinitionError :=
  m.transitions.filterMap fun t =>
    match t.schema.static?.map m.definitions.resolve with
    | some (.error e) => some (.brokenSchema t.id e)
    | _ => none

def problems (m : Machine) : List DefinitionError :=
  repeated .duplicateState [] (m.states.map (·.id)) ++
    edgeErrors m [] m.transitions ++
    hatErrors m ++
    m.definitions.check.map (fun (name, e) => .brokenDefinition name e) ++
    schemaErrors m

def check (m : Machine) : Except (List DefinitionError) Unit :=
  match m.problems with
  | [] => .ok ()
  | errors => .error errors

end Machine

end Turnstile
