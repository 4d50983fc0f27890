import Turnstile.Bridge.Error
import Turnstile.Json.Printer
import Turnstile.Rpc.Message
import Turnstile.Text.Blank

/-!
This module contains the channel between a bridge and its server, as a value with one function for each
step that happens at once. Any number of requests can be on their way; a response goes to the request that
has its identifier, whatever the order, and a response that nobody waits for is dropped. Notifications
queue up until they are drained.
-/

namespace Turnstile

structure Channel where
  nextId : UInt64
  pending : List UInt64
  /-- The responses that have come for requests, until they are collected. -/
  answers : List (UInt64 × Rpc.Response)
  /-- The notifications that have come since the last time they were drained, the oldest first. -/
  notifications : List Rpc.Notification
  /-- The lines that are to be written to the server, the oldest first. -/
  outbound : List String
  /-- Are requests and notifications taken? This never changes back. -/
  isAlive : Bool
  /-- Is what the server sends looked at? This never changes back. -/
  isReading : Bool

namespace Channel

def capacity : Nat := 1024

/-- The longest line that a server may send, in bytes. -/
def longestLine : Nat := 16 * 1024 * 1024

def start : Channel :=
  ⟨1, [], [], [], [], true, true⟩

instance : Inhabited Channel := ⟨start⟩

def line [Document α] (message : α) : String :=
  (Document.encode message).compact

/-! ## Sending -/

/-- Makes a request, which waits for its response from now on. -/
def register (c : Channel) (method : String) (params : Option Json) : Rpc.Request × Channel :=
  (.new c.nextId method params,
    { c with nextId := c.nextId + 1, pending := c.nextId :: c.pending })

/-- Lets a request wait no longer. -/
def withdraw (c : Channel) (id : UInt64) : Channel :=
  { c with pending := c.pending.filter (· ≠ id) }

def queue (c : Channel) (line : String) : Channel :=
  { c with outbound := c.outbound ++ [line] }

/-- Queues a message, unless the channel is closed. -/
def send [Document α] (c : Channel) (message : α) : Except BridgeError Channel :=
  if c.isAlive then .ok (c.queue (line message)) else .error .closed

/-- Sends a request that is registered, which waits no longer if it cannot be sent. -/
def post (c : Channel) (request : Rpc.Request) : Except BridgeError Unit × Channel :=
  match c.send request with
  | .ok sent => (.ok (), sent)
  | .error error => (.error error, c.withdraw request.id)

def ask (c : Channel) (method : String) (params : Option Json) :
    Except BridgeError Rpc.Request × Channel :=
  let (request, c) := c.register method params
  let (sent, c) := c.post request
  (sent.map fun _ => request, c)

def tell (c : Channel) (method : String) (params : Option Json) : Except BridgeError Channel :=
  c.send (Rpc.Notification.new method params)

/-! ## Receiving -/

/-- Puts a notification at the end of a queue, which loses its oldest ones if there are too many. -/
def enqueue (capacity : Nat) (queue : List Rpc.Notification) (n : Rpc.Notification) :
    List Rpc.Notification :=
  queue.drop (queue.length + 1 - max capacity 1) ++ [n]

def reply (id : Json) (method : String) : Rpc.Response :=
  if method = "ping" then .success id (.object [])
  else .failure id Rpc.methodNotFound s!"Method not found: {method}"

def answer (c : Channel) (response : Rpc.Response) : Channel :=
  match response.id? with
  | none => c
  | some id =>
    if c.pending.contains id then
      { c.withdraw id with answers := (id, response) :: c.answers }
    else c

def receive (c : Channel) : Rpc.Incoming → Channel
  | .response response => c.answer response
  | .notification n => { c with notifications := enqueue capacity c.notifications n }
  | .request id method _ => c.queue (line (reply id method))

/-- Takes a line of the server. Lines that are blank or no messages are passed over. -/
def deliver (c : Channel) (text : String) : Channel :=
  if !c.isReading || isBlankLine text then c
  else match Rpc.Incoming.ofLine text with
    | .ok message => c.receive message
    | .error _ => c

def drain (c : Channel) : List Rpc.Notification × Channel :=
  (c.notifications, { c with notifications := [] })

/-! ## Waiting -/

inductive Waiting where
  | pending
  | answered (response : Rpc.Response)
  | stranded

def waiting (c : Channel) (id : UInt64) : Waiting :=
  match c.answers.lookup id with
  | some response => .answered response
  | none => if c.pending.contains id then .pending else .stranded

def outcome (request : Rpc.Request) (response : Rpc.Response) : Except BridgeError Json :=
  response.outcome.mapError (.rpc request.method)

/-- The outcome of a request that does not wait any more. -/
def collect (c : Channel) (request : Rpc.Request) :
    Option (Except BridgeError Json) × Channel :=
  match c.waiting request.id with
  | .pending => (none, c)
  | .stranded => (some (.error .closed), c)
  | .answered response =>
    (some (outcome request response),
      { c with answers := c.answers.filter fun (id, _) => id ≠ request.id })

def cancellation (id : UInt64) : Rpc.Notification :=
  .new "notifications/cancelled"
    (some (.object [("reason", "timeout"), ("requestId", Document.encode id)]))

def expire (c : Channel) (request : Rpc.Request) (limit : Duration) (cancels : Bool) :
    BridgeError × Channel :=
  let c := c.withdraw request.id
  let c := if cancels then ((c.send (cancellation request.id)).toOption).getD c else c
  (.timeout request limit, c)

/-! ## Writing and closing -/

def takeOutbound (c : Channel) : List String × Channel :=
  (c.outbound, { c with outbound := [] })

def hush (c : Channel) : Channel :=
  { c with isAlive := false }

def release (c : Channel) : Channel :=
  { c with pending := [] }

/-- The server has closed its output, or has sent something that cannot be read. -/
def endOutput (c : Channel) : Channel :=
  { c.hush.release with isReading := false }

def failWriting (c : Channel) : Channel :=
  { c.hush with outbound := [] }

def close (c : Channel) : Channel :=
  { c.hush.release with isReading := false, outbound := [] }

end Channel

end Turnstile
