import Turnstile.Hat.Fragment
import Turnstile.Run.Context

/-!
This module contains hats, which extend contexts and machines, and registries of hats. What hats do to
the world outside goes through a state of any type.
-/

namespace Turnstile

inductive HatError where
  | invalidConfig (hat : String) (state : StateId) (reason : String)
  /-- The hat could not get what it needs. -/
  | failed (hat : String) (state : StateId) (reason : String)
  deriving DecidableEq, Repr

namespace HatError

def message : HatError → String
  | invalidConfig hat state reason => s!"Hat {hat} on {state}: invalid config: {reason}"
  | failed hat state reason => s!"Hat {hat} on {state} failed: {reason}"

instance : ToString HatError := ⟨message⟩

end HatError

inductive HatKind where
  | static
  /-- The fragment depends on the context, or the context is extended. -/
  | dynamic
  deriving DecidableEq, Repr

structure Hat (E : Extension) (σ : Type) where
  kind : HatKind
  apply : Context E → σ → Except HatError (Context E × Fragment) × σ

abbrev HatMaker (E : Extension) (σ : Type) :=
  StateId → Json → Except HatError (Hat E σ)

abbrev HatRegistry (E : Extension) (σ : Type) :=
  Table (HatMaker E σ)

namespace HatRegistry

def inspect {E : Extension} {σ : Type} (registry : HatRegistry E σ) : String :=
  described "HatRegistry" [("makers", bracketed (registry.keys.map quoted))] false

end HatRegistry

end Turnstile
