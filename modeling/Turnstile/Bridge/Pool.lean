import Turnstile.Bridge.Basic
import Turnstile.Run.Context

/-!
This module contains pools of bridges. A bridge that has been started stays in its pool, so that it can be
referred to from contexts.
-/

namespace Turnstile

structure Pool where
  programs : Programs
  /-- In the order in which they were started. -/
  bridges : List Bridge

namespace Pool

def ofPrograms (programs : Programs) : Pool :=
  ⟨programs, []⟩

/-- Starts a bridge. The pool stays as it is if that fails. -/
def start (pool : Pool) (config : BridgeConfig) : Except BridgeError BridgeRef × Pool :=
  let index := pool.bridges.length
  match Bridge.start pool.programs ⟨.ofRandom (.ofNat 128 index)⟩ config with
  | .ok bridge => (.ok ⟨index⟩, { pool with bridges := pool.bridges ++ [bridge] })
  | .error error => (.error error, pool)

def bridge? (pool : Pool) (ref : BridgeRef) : Option Bridge :=
  pool.bridges[ref.index]?

def tools (pool : Pool) (ref : BridgeRef) : List Tool :=
  ((pool.bridge? ref).map (·.tools)).getD []

def replace (pool : Pool) (ref : BridgeRef) (bridge : Bridge) : Pool :=
  { pool with bridges := pool.bridges.set ref.index bridge }

def shutdown (pool : Pool) (ref : BridgeRef) : Pool :=
  { pool with bridges := pool.bridges.modify ref.index Bridge.shutdown }

end Pool

class HasPool (σ : Type) where
  pool : σ → Pool
  setPool : σ → Pool → σ

instance : HasPool Pool := ⟨id, fun _ pool => pool⟩

end Turnstile
