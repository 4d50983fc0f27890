import Turnstile.Hat.Tools
import Turnstile.Rehearsal.Stage

/-!
This module contains the world of a rehearsal: the stage for what follows a script, and a pool for the
bridges that tool hats start.
-/

namespace Turnstile

namespace Rehearsal

structure World where
  stage : Stage
  pool : Pool

namespace World

instance : HasPool World := ⟨pool, fun world pool => { world with pool }⟩

def start (serverCommand : String) (stage : Stage) : World :=
  ⟨stage, .ofPrograms (Programs.practice.withScripted serverCommand)⟩

/-- Actions, providers and hooks follow their scripts. -/
def conduct : Conduct extension World where
  act action loop i world :=
    let (course, stage) := world.stage.perform action loop i
    (course, { world with stage })
  provide provider context t := provider.schemaFor context t
  release hook world :=
    let (course, stage) := world.stage.release hook
    (course, { world with stage })

def surroundings : Surroundings extension World :=
  conduct.surroundings

end World

end Rehearsal

end Turnstile
