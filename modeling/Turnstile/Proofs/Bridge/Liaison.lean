import Turnstile.Bridge.Basic
import Turnstile.Proofs.Bridge.Exchange

/-!
This module contains liaisons: an exchange together with everybody who has a part in it. Any number of visitors
have errands, the reader hears the server out, the writer writes or fails, and the bridge is closed from any
number of sides. Each of them goes on one small step at a time, and they do so in any order.
-/

namespace Turnstile

/-- What a bridge is used for. -/
inductive Errand where
  | introduce (config : BridgeConfig)
  | ask (method : String) (params : Option Json) (limit : Duration) (cancels : Bool)
  | tell (method : String) (params : Option Json)
  | call (calls : ToolCalls) (limit : Duration) (cancels : Bool)
  | refresh (config : BridgeConfig)

/-- What comes of an errand. -/
inductive Answer where
  | introduced (server : ServerInfo) (tools : List Tool)
  | value (value : Json)
  | told
  | tools (tools : List Tool)

abbrev Talk := Dialogue (Except BridgeError Answer)

namespace Errand

def talk : Errand → Talk
  | introduce config => (Dialogue.handshake config).map (·.map fun (server, tools) => .introduced server tools)
  | ask method params limit cancels => .ask method params limit cancels fun reply => .done (reply.map .value)
  | tell method params => .tell method params fun sent => .done (sent.map fun _ => .told)
  | call calls limit cancels => (Dialogue.callAll limit cancels calls).map (·.map .value)
  | refresh config => (Dialogue.listTools config).map (·.map .tools)

/-- Is it looked up before each message whether the bridge has been shut down? -/
def heeds : Errand → Bool
  | ask .. | tell .. | call .. => true
  | introduce _ | refresh _ => false

end Errand

namespace Liaison

/-- How far an errand has come. -/
inductive Stage where
  | before (rest : Talk)
  /-- A request is to be made. -/
  | drawing (method : String) (params : Option Json) (limit : Duration) (cancels : Bool)
    (next : Except BridgeError Json → Talk)
  /-- The request with the position has been made. -/
  | asking (n : Nat) (next : Except BridgeError Json → Talk)
  /-- It is to be looked up whether the channel is alive. -/
  | checking (notification : Rpc.Notification) (next : Except BridgeError Unit → Talk)
  /-- The channel was found to be alive. -/
  | telling (notification : Rpc.Notification) (next : Except BridgeError Unit → Talk)
  | returned (result : Except BridgeError Answer)

structure Visitor where
  heeds : Bool
  stage : Stage

/-- How far the reader has come. Its last steps follow the end of the output of the server. -/
inductive Reading where
  | reading
  | left
  | hushed
  | finished
  /-- The reader was stopped from outside. -/
  | aborted
  deriving DecidableEq

/-- How far somebody has come who closes the channel, or who shuts the bridge down. -/
inductive Closing where
  | begun
  | hushed
  /-- The channel has been closed. -/
  | closed
  | stopped (result : Except BridgeError Unit)
  /-- The bridge had been shut down before. -/
  | spared

namespace Closing

def isClosed : Closing → Bool
  | closed | stopped _ => true
  | begun | hushed | spared => false

/-- What somebody has returned with. -/
def result? : Closing → Option (Except BridgeError Unit)
  | stopped result => some result
  | spared => some (.ok ())
  | begun | hushed | closed => none

end Closing

end Liaison

namespace Progress

def outcome? : Progress → Option (Except BridgeError Json)
  | done outcome => some outcome
  | _ => none

end Progress

namespace Exchange

/-- The outcome of the request at a position, if it has one. -/
def outcome? (e : Exchange) (n : Nat) : Option (Except BridgeError Json) :=
  (e.asks[n]?).bind (·.progress.outcome?)

/-- Would the request at a position have to wait on? -/
def findsNothing (e : Exchange) (n : Nat) : Bool :=
  (e.asks[n]?).any fun a => (e.channel.collect a.request).1.isNone

end Exchange

structure Liaison where
  exchange : Exchange
  isShut : Bool
  reading : Liaison.Reading
  closings : List Liaison.Closing
  visitors : List Liaison.Visitor

namespace Liaison

def start : Liaison :=
  ⟨.start, false, .reading, [], []⟩

def isOpen (l : Liaison) : Bool :=
  !l.isShut && l.exchange.channel.isAlive

/-- Has the reader come to its end, or has somebody closed the channel? -/
def isClosed (l : Liaison) : Bool :=
  l.reading = .finished || l.closings.any (·.isClosed)

def after (l : Liaison) (move : Exchange.Move) : Liaison :=
  { l with exchange := l.exchange.play move }

def turn (l : Liaison) (i : Nat) (v : Visitor) (stage : Stage) : Liaison :=
  { l with visitors := l.visitors.set i { v with stage } }

/-! ## Visitors -/

/-- The next step of a visitor. -/
def proceed (l : Liaison) (i : Nat) (v : Visitor) : Liaison :=
  match v.stage with
  | .before (.done result) => l.turn i v (.returned result)
  | .before (.pause _ next) => l.turn i v (.before (next ()))
  | .before (.ask method params limit cancels next) =>
    if v.heeds && l.isShut then l.turn i v (.before (next (.error .closed)))
    else l.turn i v (.drawing method params limit cancels next)
  | .before (.tell method params next) =>
    if v.heeds && l.isShut then l.turn i v (.before (next (.error .closed)))
    else l.turn i v (.checking (.new method params) next)
  | .drawing method params limit cancels next =>
    (l.turn i v (.asking l.exchange.asks.length next)).after (.draw method params limit cancels)
  | .asking n next =>
    match l.exchange.outcome? n with
    | some outcome => l.turn i v (.before (next outcome))
    | none => l.after (.advance n)
  | .checking notification next =>
    if l.exchange.channel.isAlive then l.turn i v (.telling notification next)
    else l.turn i v (.before (next (.error .closed)))
  | .telling notification next => (l.turn i v (.before (next (.ok ())))).after (.tell notification)
  | .returned _ => l

/-- What is to be written does not come through to the writer. -/
def refuse (l : Liaison) (i : Nat) (v : Visitor) : Liaison :=
  match v.stage with
  | .asking n _ => l.after (.refuse n)
  | .telling _ next => l.turn i v (.before (next (.error .closed)))
  | _ => l

/-- The time of a request is over when it is found to have no response. -/
def lapse (l : Liaison) (v : Visitor) : Liaison :=
  match v.stage with
  | .asking n _ => if l.exchange.findsNothing n then l.after (.lapse n) else l
  | _ => l

/-! ## The reader, and those who close -/

/-- The next step of the reader on its way out. -/
def leave (l : Liaison) : Liaison :=
  match l.reading with
  | .reading => { l.after .mute with reading := .left }
  | .left => { l.after .hush with reading := .hushed }
  | .hushed => { l.after .release with reading := .finished }
  | .finished | .aborted => l

/-- Stops the reader where it waits for the next line. -/
def abort (l : Liaison) : Liaison :=
  match l.reading with
  | .reading => { l.after .mute with reading := .aborted }
  | _ => l

def deliver (l : Liaison) (text : String) : Liaison :=
  match l.reading with
  | .reading => l.after (.deliver text)
  | _ => l

def shutdown (l : Liaison) : Liaison :=
  if l.isShut then { l with closings := l.closings ++ [.spared] }
  else { l with isShut := true, closings := l.closings ++ [.begun] }

/-- The next step of somebody who closes, given what will come of stopping the server. -/
def close (l : Liaison) (m : Nat) (result : Except BridgeError Unit) : Liaison :=
  match l.closings[m]? with
  | some .begun => { l.after .hush with closings := l.closings.set m .hushed }
  | some .hushed => { l.after .release with closings := l.closings.set m .closed }
  | some .closed => { l with closings := l.closings.set m (.stopped result) }
  | some (.stopped _) | some .spared | none => l

/-- What can happen next. Visitors, and those who close, are named by their positions. -/
inductive Step where
  | visit (errand : Errand)
  | proceed (i : Nat)
  | refuse (i : Nat)
  | lapse (i : Nat)
  | deliver (text : String)
  | drain
  | leave
  | abort
  /-- The writer writes a line. -/
  | write
  /-- The writer has failed to write, and takes nothing any more. -/
  | failWriting
  /-- What has not been written is dropped with the writer. -/
  | discard
  | shutdown
  /-- Somebody begins to close the channel without shutting the bridge down. -/
  | drop
  | close (m : Nat) (result : Except BridgeError Unit)

namespace Step

/-- The visitor whose step it is. -/
def visitor? : Step → Option Nat
  | proceed i | refuse i | lapse i => some i
  | _ => none

/-- Is it a step of the reader on its way out, or of somebody who closes? -/
def closes : Step → Bool
  | leave | abort | shutdown | drop | close .. => true
  | _ => false

/-- Does the visitor go on by itself? -/
def proceeds (i : Nat) : Step → Bool
  | proceed j => j == i
  | _ => false

end Step

def attend (l : Liaison) (i : Nat) (step : Visitor → Liaison) : Liaison :=
  match l.visitors[i]? with
  | some v => step v
  | none => l

def play (l : Liaison) : Step → Liaison
  | .visit errand => { l with visitors := l.visitors ++ [⟨errand.heeds, .before errand.talk⟩] }
  | .proceed i => l.attend i (l.proceed i)
  | .refuse i => l.attend i (l.refuse i)
  | .lapse i => l.attend i l.lapse
  | .deliver text => l.deliver text
  | .drain => l.after .drain
  | .leave => l.leave
  | .abort => l.abort
  | .write => l.after .take
  | .failWriting => l.after .hush
  | .discard => l.after .discard
  | .shutdown => l.shutdown
  | .drop => { l with closings := l.closings ++ [.begun] }
  | .close m result => l.close m result

def playAll (l : Liaison) (steps : List Step) : Liaison :=
  steps.foldl play l

end Liaison

end Turnstile
