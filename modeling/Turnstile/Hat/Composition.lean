import Turnstile.Hat.Basic

/-!
This module contains composition: all hats that a machine declares are applied, one after the other. The
declarations of states come first, in the order of the states, and then those of the machine. The context
goes from each hat to the next, and so does the machine; but only what the machine declares at the start
is applied.
-/

namespace Turnstile

structure Declaration where
  hat : String
  state : StateId
  config : Json
  deriving DecidableEq

namespace Machine

def declarations (m : Machine) : List Declaration :=
  (m.states.flatMap fun s => s.hats.map fun hat => ⟨hat.name, s.id, hat.config⟩) ++
    m.hats.entries.flatMap fun (hat, targets) => targets.map fun state => ⟨hat, state, .null⟩

end Machine

inductive CompositionWarning where
  | unknownHat (hat : String) (state : StateId)
  | unknownPromptTarget (hat : String) (target : StateId)
  deriving DecidableEq, Repr

namespace CompositionWarning

def message : CompositionWarning → String
  | unknownHat hat state => s!"unknown hat {hat} on state {state}; skipped"
  | unknownPromptTarget hat target => s!"hat {hat} adds prompts to unknown state {target}"

instance : ToString CompositionWarning := ⟨message⟩

end CompositionWarning

structure AppliedHat where
  hat : String
  state : StateId
  kind : HatKind
  fragment : Fragment
  deriving DecidableEq

structure Composition (E : Extension) where
  context : Context E
  machine : Machine
  /-- In the order of application. -/
  applied : List AppliedHat
  warnings : List CompositionWarning

namespace Composition

variable {E : Extension} {σ : Type}

def start (context : Context E) (machine : Machine) : Composition E :=
  ⟨context, machine, [], []⟩

def warn (c : Composition E) (warnings : List CompositionWarning) : Composition E :=
  { c with warnings := c.warnings ++ warnings }

def add (c : Composition E) (d : Declaration) (kind : HatKind) (context : Context E)
    (fragment : Fragment) : Composition E :=
  let (machine, missing) := fragment.mergeInto c.machine
  let applied := c.applied ++ [⟨d.hat, d.state, kind, fragment⟩]
  { c with context, machine, applied }.warn (missing.map (.unknownPromptTarget d.hat))

def staticFragments (c : Composition E) : List Fragment :=
  (c.applied.filter (·.kind = .static)).map (·.fragment)

/-- Applies declared hats. The first one that fails ends the composition. -/
def applyAll (registry : HatRegistry E σ) :
    List Declaration → Composition E → σ → Except HatError (Composition E) × σ
  | [], c, world => (.ok c, world)
  | d :: rest, c, world =>
    match registry.get? d.hat with
    | none => applyAll registry rest (c.warn [.unknownHat d.hat d.state]) world
    | some make =>
      match make d.state d.config with
      | .error error => (.error error, world)
      | .ok hat =>
        match hat.apply c.context world with
        | (.error error, world) => (.error error, world)
        | (.ok (context, fragment), world) =>
          applyAll registry rest (c.add d hat.kind context fragment) world

end Composition

def applyHats {E : Extension} {σ : Type} (registry : HatRegistry E σ) (context : Context E)
    (machine : Machine) (world : σ) : Except HatError (Composition E) × σ :=
  Composition.applyAll registry machine.declarations (.start context machine) world

end Turnstile
