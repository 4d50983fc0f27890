import Turnstile.Machine.Check
import Turnstile.Run.Trail

/-!
This module contains the errors of actions, of schema providers and of runs.
-/

namespace Turnstile

inductive ActionError where
  | failed (action reason : String)
  /-- The entering event is nothing that the action understands. -/
  | badInput (action reason : String)
  | toolFailed (action tool : String) (arguments : Json) (error : String)
  deriving DecidableEq

namespace ActionError

def message : ActionError → String
  | failed action reason => s!"Action {action} failed: {reason}"
  | badInput action reason => s!"Action {action} cannot handle its input: {reason}"
  | toolFailed action tool _ error => s!"Action {action} failed: tool {tool} failed: {error}"

instance : ToString ActionError := ⟨message⟩

end ActionError

/-- A schema could not be provided. -/
structure ProviderError where
  reason : String
  deriving DecidableEq

namespace ProviderError

def message (e : ProviderError) : String :=
  s!"Schema provider failed: {e.reason}"

instance : ToString ProviderError := ⟨message⟩

end ProviderError

/-- Why a run did not start, has failed or does not take events. -/
inductive RunError where
  | definition (errors : List DefinitionError)
  /-- A state names an action that the context does not have. -/
  | unknownAction (state : StateId) (action : String)
  | noAction (state : StateId)
  | unknownState (state : StateId)
  | unknownProvider (key : String) (edge : Edge)
  | provider (key reason : String)
  /-- The schema of a transition cannot be resolved or compiled. -/
  | schema (edge : Edge) (error : SchemaError)
  /-- An event was rejected and there is no further attempt. -/
  | rejected (edge : Edge) (failure : Failure)
  | action (error : ActionError)
  | notRunning
  | internal (message : String)
  deriving DecidableEq

namespace RunError

def message : RunError → String
  | definition errors =>
    "Invalid machine definition: " ++ String.intercalate "; " (errors.map toString)
  | unknownAction state name => s!"State {state} uses unregistered action {name}"
  | noAction state => s!"State {state} has no action"
  | unknownState state => s!"Unknown state: {state}"
  | unknownProvider key edge => s!"No schema provider {key} for {edge}"
  | provider key reason => s!"Schema provider {key} failed: {reason}"
  | schema edge error => s!"Schema for {edge} is unusable: {error}"
  | rejected edge failure => s!"Event for {edge} rejected: {failure.summary}"
  | action error => error.message
  | notRunning => "Run is not running"
  | internal message => s!"Internal error: {message}"

instance : ToString RunError := ⟨message⟩

end RunError

end Turnstile
