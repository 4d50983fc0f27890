import Turnstile.Json.Printer
import Turnstile.Json.Reader
import Turnstile.Server.Effect
import Turnstile.Table

/-!
This module contains scripted servers. The script says what the server sends when it hears a message with a
method. The member `on` has, for a method or for a method and the name in its parameters, a list of replies:
the first one is for the first message, and the last one for all further messages. A reply is a list of
items. Texts are lines to be sent as they are, and objects are messages, except for a few objects that ask
for something else.
-/

namespace Turnstile

namespace Scripted

structure Blanks where
  id : Json
  log : List Json
  count : Nat
  turn : Nat

/-- An identifier that is higher by the given number, if both are integers. -/
def shifted : Json → Json → Json
  | .number id, .number offset =>
    match id.toInt64?, offset.toInt64? with
    | some id, some offset => .number (.ofInt64 (id + offset))
    | _, _ => .number id
  | id, _ => id

mutual

def fill (b : Blanks) : Json → Json
  | .string "$id" => b.id
  | .string "$log" => .list b.log
  | .string "$n" => .number (.ofUInt64 (.ofNat b.turn))
  | .string text => .string (text.replace "$k" (toString b.count))
  | .list items => .list (fillItems b items)
  | .object [("$id", offset)] => shifted b.id offset
  | .object members => .object (fillMembers b members)
  | other => other

def fillItems (b : Blanks) : List Json → List Json
  | [] => []
  | item :: rest => fill b item :: fillItems b rest

def fillMembers (b : Blanks) : List (String × Json) → List (String × Json)
  | [] => []
  | (key, value) :: rest => (key, fill b value) :: fillMembers b rest

end

def naturalOf : Json → Nat
  | .number n => n.toNat?.getD 0
  | _ => 0

def send (b : Blanks) : Json → Effect
  | .string line => .line line
  | .object [("$bytes", .list bytes)] =>
    .output (bytes.map fun byte => UInt8.ofNat (naturalOf byte)).toByteArray
  | .object [("$long", length)] =>
    .output (((naturalOf length).repeat (ByteArray.push · 'x'.toUInt8) ByteArray.empty).push 10)
  | .object [("$deaf", _)] => .deafen
  | .object [("$exit", _)] => .exit 0
  | message => .line (fill b message).compact

def perform (b : Blanks) : Json → List Effect
  | .object [("$repeat", times), ("send", item)] =>
    (List.range (naturalOf times)).map fun turn => send { b with turn } item
  | item => [send b item]

structure Server where
  script : Json
  /-- Everything that the server has heard, the last message first. -/
  log : List Json
  counts : Table Nat
  /-- Has the server ended, or stopped listening? -/
  isSilent : Bool

namespace Server

def replies? (s : Server) (key : String) : Option (List Json) :=
  ((s.script.get? "on").bind (·.get? key)).bind Json.list?

def keyOf (s : Server) (method : String) (message : Json) : String :=
  match ((message.get? "params").bind (·.get? "name")).bind Json.string? with
  | none => method
  | some name =>
    let key := s!"{method}:{name}"
    if (s.replies? key).isSome then key else method

def result (value : Json) : List Json :=
  [.object [("id", "$id"), ("jsonrpc", "2.0"), ("result", value)]]

def introduction : Json :=
  .object [
    ("capabilities", .object [("tools", .object [])]),
    ("protocolVersion", "2024-11-05"),
    ("serverInfo", .object [("name", "peer"), ("version", "9")])]

def standardReply (s : Server) : String → List Json
  | "initialize" => result introduction
  | "tools/list" => result (.object [("tools", (s.script.get? "tools").getD (.list []))])
  | "peer/log" => result "$log"
  | _ => []

/-- The reply that is for the message with the given number, counted from one. -/
def replyAt (replies : List Json) (count : Nat) : List Json :=
  (((replies[count - 1]?).orElse fun _ => replies.getLast?).bind Json.list?).getD []

def isLast : Effect → Bool
  | .deafen | .exit _ => true
  | _ => false

def answer (s : Server) (method : String) (message : Json) : Server × Reaction :=
  let key := s.keyOf method message
  let count := (s.counts.get? key).getD 0 + 1
  let reply := match s.replies? key with
    | some replies => replyAt replies count
    | none => s.standardReply method
  let blanks : Blanks := ⟨(message.get? "id").getD .null, s.log.reverse, count, 0⟩
  let effects := reply.flatMap (perform blanks)
  ({ s with counts := s.counts.insert key count, isSilent := effects.any isLast },
    effects.map (·.atOnce))

def hear (s : Server) (line : String) : Server × Reaction :=
  if s.isSilent then (s, [])
  else match Json.parse? line with
    | none => (s, [])
    | some message =>
      let s := { s with log := message :: s.log }
      match (message.get? "method").bind Json.string? with
      | some method => s.answer method message
      | none => (s, [])

end Server

/-- Starts a server with the script that is its first argument. -/
def launch (arguments : List String) : Server :=
  ⟨(arguments.head?.bind Json.parse?).getD .null, [], {}, false⟩

end Scripted

end Turnstile
