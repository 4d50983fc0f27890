import Turnstile.Run.Event
import Turnstile.Schema.Violation

/-!
This module contains trails: the histories of runs, with one record for each event that was taken up.
-/

namespace Turnstile

open Document Fields Json

/-- Why an event was rejected. -/
inductive FailureKind where
  | validation
  /-- The machine has no such transition. -/
  | unknownTransition
  /-- The schema of the transition is not available or not usable. -/
  | schema
  deriving DecidableEq

namespace FailureKind

def name : FailureKind → String
  | validation => "validation"
  | unknownTransition => "unknown-xition"
  | schema => "schema"

instance : ToString FailureKind := ⟨name⟩

def ofName? (name : String) : Option FailureKind :=
  [validation, unknownTransition, schema].find? (·.name = name)

end FailureKind

/-- A name that stands alone, or as the one key of an object with the value `null`. -/
def tag? : Written → Option String
  | .string name => some name
  | .object [(name, .null)] => name
  | _ => none

instance : Document FailureKind where
  encode kind := .string kind.name
  decode value := require ((tag? value).bind FailureKind.ofName?)

structure Failure where
  kind : FailureKind
  errors : List Violation
  /-- The attempt of the action that produced the event, counted from one. -/
  attempt : UInt32
  deriving DecidableEq

namespace Failure

/-- A failure with one message about the event as a whole. -/
def ofMessage (kind : FailureKind) (message : String) (attempt : UInt32) : Failure :=
  ⟨kind, [⟨"", "", message⟩], attempt⟩

def summary (f : Failure) : String :=
  String.intercalate "; " (f.errors.map toString)

instance : Document Failure where
  encode f := .object
    [("kind", encode f.kind), ("errors", encode f.errors), ("attempt-number", encode f.attempt)]
  decode := Fields.decode <| mk <$> required "kind" <*> required "errors" <*>
    required "attempt-number"

end Failure

structure TrailRecord where
  machineId : String
  machineVersion : String
  source : StateId
  /-- The state that the event entered, if it was accepted. -/
  target : Option StateId
  event : Event
  /-- Why the event was rejected, if it was. -/
  failure : Option Failure
  deriving DecidableEq

namespace TrailRecord

def isSuccess (r : TrailRecord) : Bool :=
  r.failure.isNone

def line (r : TrailRecord) : String :=
  let message := r.event.message.compact
  match r.target, r.failure with
  | some target, _ => s!"{r.source} -> {target}: {message}"
  | none, some f =>
    s!"{r.event.edge} rejected ({f.kind}, attempt {f.attempt}): {message} [{f.summary}]"
  | none, none => s!"{r.event.edge}: {message}"

instance : Document TrailRecord where
  encode r := .object <|
    [("machine-id", encode r.machineId), ("machine-version", encode r.machineVersion),
      ("from", encode r.source)] ++ optionalMember "to" r.target ++
      [("event", encode r.event)] ++ optionalMember "failure" r.failure
  decode := Fields.decode <| mk <$> required "machine-id" <*> required "machine-version" <*>
    required "from" <*> optional "to" <*> required "event" <*> optional "failure"

end TrailRecord

/-- The records of a run, the oldest first. -/
abbrev Trail := List TrailRecord

namespace Trail

def successes (trail : Trail) : List TrailRecord :=
  trail.filter (·.isSuccess)

def failures (trail : Trail) : List TrailRecord :=
  trail.filter (!·.isSuccess)

/-- The state that the last accepted event entered. -/
def currentState (trail : Trail) : Option StateId :=
  trail.successes.getLast?.bind (·.target)

/-- Does each record start where the one before it ended? -/
def connected : List TrailRecord → Bool
  | first :: second :: rest => first.target = some second.source && connected (second :: rest)
  | _ => true

/-- Do the accepted events connect? -/
def isContiguous (trail : Trail) : Bool :=
  connected trail.successes

def promptLines (trail : Trail) : List String :=
  trail.map (·.line)

end Trail

end Turnstile
