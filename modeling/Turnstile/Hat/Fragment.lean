import Turnstile.Machine.Document

/-!
This module contains fragments: what hats add to machines.
-/

namespace Turnstile

open Document Fields Json

structure Fragment where
  states : List State
  transitions : List Transition
  prompts : Table (List String)
  deriving DecidableEq

namespace Fragment

def empty : Fragment :=
  ⟨[], [], {}⟩

instance : EmptyCollection Fragment := ⟨empty⟩

def addState (f : Fragment) (state : State) : Fragment :=
  { f with states := f.states ++ [state] }

def addTransition (f : Fragment) (transition : Transition) : Fragment :=
  { f with transitions := f.transitions ++ [transition] }

def addPrompt (f : Fragment) (target : StateId) (line : String) : Fragment :=
  { f with
    prompts := f.prompts.insert target.name ((f.prompts.get? target.name).getD [] ++ [line]) }

def isEmpty (f : Fragment) : Bool :=
  f.states.isEmpty && f.transitions.isEmpty && f.prompts.isEmpty

/-- Addresses prompt lines to states, and collects the targets that do not exist. -/
def addressPrompts (m : Machine) : List (String × List String) → Machine × List StateId
  | [] => (m, [])
  | (target, lines) :: rest =>
    if (m.state? ⟨target⟩).isSome then addressPrompts (m.addPrompts ⟨target⟩ lines) rest
    else
      let (m, missing) := addressPrompts m rest
      (m, ⟨target⟩ :: missing)

/--
Appends states and transitions to a machine, and then prompt lines to their targets. The lines for
targets that do not exist are dropped.
-/
def mergeInto (f : Fragment) (m : Machine) : Machine × List StateId :=
  addressPrompts
    { m with states := m.states ++ f.states, transitions := m.transitions ++ f.transitions }
    f.prompts.entries

instance : Document Fragment where
  encode f := .object <|
    memberUnless f.states.isEmpty "states" f.states ++
      memberUnless f.transitions.isEmpty "xitions" f.transitions ++
      memberUnless f.prompts.isEmpty "prompts" f.prompts
  decode := Fields.decode <| mk <$> defaulted "states" [] <*> defaulted "xitions" [] <*>
    defaulted "prompts" {}

end Fragment

end Turnstile
