import Turnstile.Hat.Basic
import Turnstile.Run.Event

/-!
This module contains the hat `echo`, which adds a state that returns whatever it is sent.
-/

namespace Turnstile

namespace Echo

/-- The name of the hat, and of the action of the states that it adds. -/
def name : String := "echo"

def stateOf (state : StateId) : StateId :=
  state.suffixed "echo"

def fragment (state : StateId) : Fragment :=
  let echo := stateOf state
  Fragment.empty
    |>.addState { State.new echo with
        action := some name
        prompts := ["Repeats the message it receives."] }
    |>.addTransition { Transition.new state echo with
        description := some "send a message to be echoed" }
    |>.addTransition { Transition.new echo state with description := some "echoed message" }
    |>.addPrompt state s!"Send any message along [{state}, {echo}] and it comes back unchanged."

def extend {E : Extension} (context : Context E) : Context E :=
  if context.hasAction name then context else context.addAction name .echo

def hat {E : Extension} {σ : Type} (state : StateId) : Hat E σ where
  kind := .static
  apply context world := (.ok (extend context, fragment state), world)

def maker {E : Extension} {σ : Type} : HatMaker E σ :=
  fun state _ => .ok (hat state)

/-- What the action answers to the event that has entered its state. -/
def answer (event : Event) : Event :=
  .new event.edge.reversed event.message

end Echo

namespace HatRegistry

def builtin {E : Extension} {σ : Type} : HatRegistry E σ :=
  Table.empty.insert Echo.name Echo.maker

end HatRegistry

end Turnstile
