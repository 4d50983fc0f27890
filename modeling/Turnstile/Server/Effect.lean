import Turnstile.Text.Duration

/-!
This module contains what programs do to the world outside, as far as those can see it that have started
the program: what is put out on the two standard streams, and how the program ends.
-/

namespace Turnstile

inductive Effect where
  | output (bytes : ByteArray)
  | note (line : String)
  | write (name text : String)
  /-- Closes standard input, so that writing to the program fails. -/
  | deafen
  | exit (code : UInt8)

/-- What a program does in answer to something, each time with the delay. The delays do not decrease. -/
abbrev Reaction := List (Duration × Effect)

namespace Effect

def line (text : String) : Effect :=
  .output (text ++ "\n").toUTF8

def atOnce (effect : Effect) : Duration × Effect :=
  (.zero, effect)

end Effect

end Turnstile
