import Turnstile.Json.Record

/-!
This module contains the names of states and of the transitions between them.
-/

namespace Turnstile

structure StateId where
  name : String
  deriving DecidableEq, Repr

namespace StateId

instance : ToString StateId := ⟨name⟩

instance : Inhabited StateId := ⟨⟨""⟩⟩

/-- Where events come from that no state has produced. -/
def start : StateId := ⟨"start"⟩

def final : StateId := ⟨"end"⟩

def isStart (id : StateId) : Bool :=
  id = start

def isFinal (id : StateId) : Bool :=
  id = final

/-- Sentinels can be named without being declared. -/
def isSentinel (id : StateId) : Bool :=
  id.isStart || id.isFinal

def suffixed (id : StateId) (suffix : String) : StateId :=
  ⟨id.name ++ "-" ++ suffix⟩

instance : Document StateId where
  encode id := .string id.name
  decode value := StateId.mk <$> Document.decode value

end StateId

structure Edge where
  source : StateId
  target : StateId
  deriving DecidableEq, Repr

namespace Edge

instance : ToString Edge := ⟨fun edge => s!"[{edge.source} -> {edge.target}]"⟩

instance : Inhabited Edge := ⟨⟨default, default⟩⟩

def isTerminal (edge : Edge) : Bool :=
  edge.target.isFinal

def reversed (edge : Edge) : Edge :=
  ⟨edge.target, edge.source⟩

instance : Document Edge where
  encode edge := .list [.string edge.source.name, .string edge.target.name]
  decode
    | .list [source, target] => do
      return ⟨← Document.decode source, ← Document.decode target⟩
    | _ => .error .malformed

end Edge

end Turnstile
