import Turnstile.Bridge.Config
import Turnstile.Bridge.Error
import Turnstile.Text.Quoted
import Turnstile.Tool.Call
import Turnstile.Tool.Info

/-!
This module contains dialogues: what is said to a server, one thing after the other, where each thing can
depend on the responses before it. The handshake, the listing of tools and the calling of tools are
dialogues. A dialogue knows nothing of the channel that it goes through.
-/

namespace Turnstile

inductive Dialogue (α : Type) where
  | done (result : α)
  /-- Sends a request, and goes on with what comes of it. -/
  | ask (method : String) (params : Option Json) (limit : Duration) (cancels : Bool)
    (next : Except BridgeError Json → Dialogue α)
  | tell (method : String) (params : Option Json) (next : Except BridgeError Unit → Dialogue α)
  | pause (time : Duration) (next : Unit → Dialogue α)

namespace Dialogue

def bind (d : Dialogue α) (f : α → Dialogue β) : Dialogue β :=
  match d with
  | done result => f result
  | ask method params limit cancels next =>
    .ask method params limit cancels fun reply => (next reply).bind f
  | tell method params next => .tell method params fun sent => (next sent).bind f
  | pause time next => .pause time fun u => (next u).bind f

instance : Monad Dialogue where
  pure := done
  bind := bind

def map (f : α → β) (d : Dialogue α) : Dialogue β :=
  d.bind fun result => .done (f result)

end Dialogue

/-! ## Listing tools -/

namespace Listing

def maxPages : Nat := 64

def tooLong : BridgeError :=
  .protocol s!"tools/list has more than {maxPages} pages"

def repeated (cursor : String) : BridgeError :=
  .protocol s!"tools/list repeated cursor {quoted cursor}"

/-- Where the next page starts, if there is one. -/
def cursor? (page : ToolsPage) : Option String :=
  page.next.filter (· ≠ "")

def pageOf (reply : Except BridgeError Json) : Except BridgeError ToolsPage := do
  let result ← reply
  (Document.ofJson result).mapError fun fault : Fault => .protocol fault.reason

def params (cursor : Option String) : Option Json :=
  cursor.map fun cursor => .object [("cursor", .string cursor)]

def ask (config : BridgeConfig) (cursor : Option String)
    (next : Except BridgeError ToolsPage → Dialogue α) : Dialogue α :=
  .ask "tools/list" (params cursor) config.timeoutDuration config.cancelOnTimeout fun reply =>
    next (pageOf reply)

/--
Lists the tools from a cursor on, given how many pages can follow the next one, the cursors before, and
the tools so far.
-/
def listFrom (config : BridgeConfig) :
    Nat → List String → Option String → List Tool → Dialogue (Except BridgeError (List Tool))
  | left, seen, cursor, tools =>
    ask config cursor fun page =>
      match page with
      | .error error => .done (.error error)
      | .ok page =>
        match cursor? page, left with
        | none, _ => .done (.ok (tools ++ page.tools))
        | some _, 0 => .done (.error tooLong)
        | some next, left + 1 =>
          if seen.contains next then .done (.error (repeated next))
          else listFrom config left (next :: seen) (some next) (tools ++ page.tools)

end Listing

namespace Dialogue

/-- Lists all tools of a server, page by page. -/
def listTools (config : BridgeConfig) : Dialogue (Except BridgeError (List Tool)) :=
  Listing.listFrom config (Listing.maxPages - 1) [] none []

/-! ## The handshake -/

def introduction (config : BridgeConfig) : Json :=
  .object [
    ("capabilities", .object []),
    ("clientInfo",
      .object [("name", .string config.clientName), ("version", .string config.clientVersion)]),
    ("protocolVersion", .string config.protocolVersion)]

def serverOf (reply : Except BridgeError Json) : Except BridgeError ServerInfo := do
  let result ← reply
  (Document.ofJson result).mapError fun fault : Fault => .protocol fault.reason

def failedStep (step : HandshakeStep) (error : BridgeError) : BridgeError :=
  .handshake step error.message

/-- Lists the tools as the last step of the handshake. -/
def finishHandshake (config : BridgeConfig) (server : ServerInfo) :
    Dialogue (Except BridgeError (ServerInfo × List Tool)) :=
  (listTools config).map fun tools =>
    (tools.mapError (failedStep .listing)).map fun tools => (server, tools)

/-- Tells the server that it can be used, and leaves it some time to settle. -/
def confirm (config : BridgeConfig) (server : ServerInfo) :
    Dialogue (Except BridgeError (ServerInfo × List Tool)) :=
  .tell "notifications/initialized" none fun sent =>
    match sent with
    | .error error => .done (.error (failedStep .confirmation error))
    | .ok () => .pause config.settleDuration fun _ => finishHandshake config server

def handshake (config : BridgeConfig) : Dialogue (Except BridgeError (ServerInfo × List Tool)) :=
  .ask "initialize" (some (introduction config)) config.timeoutDuration false fun reply =>
    match serverOf reply with
    | .error error => .done (.error (failedStep .introduction error))
    | .ok server => confirm config server

/-! ## Calling tools -/

def callResult (call : ToolCall) (reply : Except BridgeError Json) : Except BridgeError Json :=
  match reply with
  | .ok result =>
    (ToolResult.value result).mapError fun text => .toolCallFailed call.name call.arguments text
  | .error (.rpc _ error) => .error (.toolCallFailed call.name call.arguments error.describe)
  | .error error => .error error

def call (limit : Duration) (cancels : Bool) (call : ToolCall) :
    Dialogue (Except BridgeError Json) :=
  .ask "tools/call" (some call.params) limit cancels fun reply => .done (callResult call reply)

/-- Makes calls one after the other, up to the first one that fails. -/
def callEach (limit : Duration) (cancels : Bool) :
    List ToolCall → Dialogue (Except BridgeError (List Json))
  | [] => .done (.ok [])
  | first :: rest =>
    .ask "tools/call" (some first.params) limit cancels fun reply =>
      match callResult first reply with
      | .error error => .done (.error error)
      | .ok result => (callEach limit cancels rest).map (·.map (result :: ·))

def callAll (limit : Duration) (cancels : Bool) : ToolCalls → Dialogue (Except BridgeError Json)
  | .one only => call limit cancels only
  | .many calls => (callEach limit cancels calls).map (·.map .list)

end Dialogue

end Turnstile
