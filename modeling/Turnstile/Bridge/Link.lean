import Turnstile.Bridge.Channel
import Turnstile.Bridge.Dialogue
import Turnstile.Server.Session

/-!
This module contains links: a channel together with the session that it goes through. What is queued on
the channel is written, and what the server puts out is delivered, while somebody waits for something.
-/

namespace Turnstile

structure Link where
  channel : Channel
  session : Session

namespace Link

def start (program : Program) (reaction : Reaction) : Link :=
  ⟨.start, .start (some Channel.longestLine) program reaction⟩

def now (l : Link) : Duration :=
  l.session.now

/-- Writes lines up to the first one that cannot be written. -/
def writeAll (l : Link) : List String → Link
  | [] => l
  | line :: rest =>
    match l.session.write (line ++ "\n").toUTF8 with
    | some session => { l with session }.writeAll rest
    | none => { l with channel := l.channel.failWriting }

/-- Writes what is queued, and lets the server hear it. -/
def flush (l : Link) : Link :=
  let (lines, channel) := l.channel.takeOutbound
  let l := { l with channel }.writeAll lines
  { l with session := l.session.listen }

/-- Lets happen what is due next, and delivers the lines that come of it. -/
def proceed (l : Link) : Link :=
  let session := l.session.proceed
  let channel := session.lines.foldl Channel.deliver l.channel
  let channel := if session.isOver then channel.endOutput else channel
  ⟨channel, { session with lines := [] }⟩

/-- Moves the clock on, if it is not there yet. -/
def skipTo (l : Link) (moment : Duration) : Link :=
  if l.now ≤ moment then { l with session := { l.session with now := moment } } else l

/--
Lets everything happen up to a moment that is not yet come. Somebody who is served before that does not
wait for the moment, nor for the end of the output.
-/
def attend (deadline : Duration) (isServed : Channel → Bool) : Nat → Link → Link
  | 0, l => l
  | steps + 1, l =>
    let l := l.flush
    match l.session.due? with
    | none => if isServed l.channel then l else l.skipTo deadline
    | some due =>
      if isServed l.channel then
        if due ≤ l.now ∧ l.session.process.exit.isNone then
          attend deadline isServed steps l.proceed
        else l
      else if due < deadline then attend deadline isServed steps l.proceed
      else l.skipTo deadline

/-- Waits until no request waits any more, but not longer than to the deadline. -/
def await (l : Link) (requests : List Rpc.Request) (deadline : Duration) : Link :=
  if deadline ≤ l.now then l
  else
    l.attend deadline
      (fun c => requests.all fun request => match c.waiting request.id with
        | .pending => false
        | _ => true)
      Session.patience

def settle (l : Link) (request : Rpc.Request) (limit : Duration) (cancels : Bool) :
    Except BridgeError Json × Link :=
  match l.channel.collect request with
  | (some outcome, channel) => (outcome, { l with channel })
  | (none, channel) =>
    let (error, channel) := channel.expire request limit cancels
    (.error error, { l with channel })

/-- Sends requests one after the other. -/
def sendAll (l : Link) :
    List (String × Option Json) → List (Except BridgeError Rpc.Request) × Link
  | [] => ([], l)
  | (method, params) :: rest =>
    let (request, channel) := l.channel.ask method params
    let (requests, l) := { l with channel }.sendAll rest
    (request :: requests, l)

/-- The outcomes of requests, of which some may not have been sent. -/
def settleAll (l : Link) (limit : Duration) (cancels : Bool) :
    List (Except BridgeError Rpc.Request) → List (Except BridgeError Json) × Link
  | [] => ([], l)
  | sent :: rest =>
    let (outcome, l) := match sent with
      | .ok request => l.settle request limit cancels
      | .error error => (.error error, l)
    let (outcomes, l) := l.settleAll limit cancels rest
    (outcome :: outcomes, l)

/-- Sends requests that are on their way together, and waits for all of them. -/
def askAll (l : Link) (asked : List (String × Option Json)) (limit : Duration) (cancels : Bool) :
    List (Except BridgeError Json) × Link :=
  let (sent, l) := l.sendAll asked
  let requests := sent.filterMap Except.toOption
  let l := if requests.isEmpty then l else l.await requests (l.now + limit)
  l.settleAll limit cancels sent

def ask (l : Link) (method : String) (params : Option Json) (limit : Duration) (cancels : Bool) :
    Except BridgeError Json × Link :=
  match l.askAll [(method, params)] limit cancels with
  | (outcome :: _, l) => (outcome, l)
  | ([], l) => (.error .closed, l)

def tell (l : Link) (method : String) (params : Option Json) : Except BridgeError Unit × Link :=
  match l.channel.tell method params with
  | .ok channel => (.ok (), { l with channel })
  | .error error => (.error error, l)

def pause (l : Link) (time : Duration) : Link :=
  (l.attend (l.now + time) (fun _ => false) Session.patience)

def hold (l : Link) : Dialogue α → α × Link
  | .done result => (result, l)
  | .ask method params limit cancels next =>
    let (reply, l) := l.ask method params limit cancels
    l.hold (next reply)
  | .tell method params next =>
    let (sent, l) := l.tell method params
    l.hold (next sent)
  | .pause time next => (l.pause time).hold (next ())

/-- Closes the channel, and ends the process. -/
def close (l : Link) : Link :=
  ⟨l.channel.close, l.session.kill⟩

/-- Holds the handshake. If it fails, the link is closed. -/
def handshake (l : Link) (config : BridgeConfig) :
    Except BridgeError (ServerInfo × List Tool) × Link :=
  match l.hold (Dialogue.handshake config) with
  | (.ok introduced, l) => (.ok introduced, l)
  | (.error error, l) => (.error error, l.close)

end Link

end Turnstile
