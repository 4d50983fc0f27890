import Turnstile.Bridge.Link
import Turnstile.Json.Inspect
import Turnstile.Uuid

/-!
This module contains bridges: connections to tool servers whose tools are known.
-/

namespace Turnstile

structure Bridge where
  id : BridgeId
  config : BridgeConfig
  link : Link
  server : ServerInfo
  /-- The catalogue of the last listing that has succeeded. -/
  tools : List Tool
  isShut : Bool

/-- The texts that a process is started with. None of them can have a null character in it. -/
def BridgeConfig.texts (config : BridgeConfig) : List String :=
  config.command :: config.args ++ config.env.entries.flatMap fun (name, value) => [name, value]

/-- Programs are found along the search path of this program, and along no other one. -/
def BridgeConfig.findsPrograms (config : BridgeConfig) : Bool :=
  !config.env.contains "PATH" && !config.texts.any (·.contains '\x00')

def BridgeConfig.spawn (config : BridgeConfig) (programs : Programs) :
    Except BridgeError (Program × Reaction) :=
  let found := if config.findsPrograms then programs config.command config.args else none
  if config.command = "" then .error (.config "command is empty")
  else match found with
    | some started => .ok started
    | none => .error (.spawn config.commandLine "no such program")

namespace Bridge

def start (programs : Programs) (id : BridgeId) (config : BridgeConfig) :
    Except BridgeError Bridge := do
  let (program, reaction) ← config.spawn programs
  let (introduced, link) := (Link.start program reaction).handshake config
  let (server, tools) ← introduced
  return ⟨id, config, link, server, tools, false⟩

/-- What the start of a bridge returns is what its handshake comes to. -/
theorem start_eq {programs : Programs} {config : BridgeConfig} {program : Program} {reaction : Reaction}
    (hs : config.spawn programs = .ok (program, reaction)) (id : BridgeId) :
    start programs id config = ((Link.start program reaction).handshake config).1.map fun introduced =>
      ⟨id, config, ((Link.start program reaction).handshake config).2, introduced.1, introduced.2, false⟩ := by
  -- The handshake gets a name, so that nothing below runs it.
  obtain ⟨handshake, hn⟩ : ∃ handshake : Program → Reaction → Except BridgeError (ServerInfo × List Tool) × Link,
      ∀ program reaction, (Link.start program reaction).handshake config = handshake program reaction :=
    ⟨_, fun _ _ => rfl⟩
  unfold start
  simp -iota only [hn, hs]
  simp only [bind, Except.bind]
  cases (handshake program reaction).1 <;> rfl

def isOpen (b : Bridge) : Bool :=
  !b.isShut && b.link.channel.isAlive

/-- Sends requests that are on their way together, and waits for all of them. -/
def askAll (b : Bridge) (asked : List (String × Option Json)) (limit : Duration) :
    List (Except BridgeError Json) × Bridge :=
  if b.isShut then (asked.map fun _ => .error .closed, b)
  else
    let (outcomes, link) := b.link.askAll asked limit b.config.cancelOnTimeout
    (outcomes, { b with link })

def ask (b : Bridge) (method : String) (params : Option Json) (limit : Duration) :
    Except BridgeError Json × Bridge :=
  if b.isShut then (.error .closed, b)
  else
    let (outcome, link) := b.link.ask method params limit b.config.cancelOnTimeout
    (outcome, { b with link })

def tell (b : Bridge) (method : String) (params : Option Json) :
    Except BridgeError Unit × Bridge :=
  if b.isShut then (.error .closed, b)
  else
    let (sent, link) := b.link.tell method params
    (sent, { b with link })

/-- Makes one call, or several ones in order. -/
def callAll (b : Bridge) (calls : ToolCalls) (limit : Duration) :
    Except BridgeError Json × Bridge :=
  let (result, link) := b.link.hold (Dialogue.callAll limit b.config.cancelOnTimeout calls)
  (result, { b with link })

def call (b : Bridge) (call : ToolCall) (limit : Duration) : Except BridgeError Json × Bridge :=
  b.callAll (.one call) limit

def drain (b : Bridge) : List Rpc.Notification × Bridge :=
  let (notifications, channel) := b.link.channel.drain
  (notifications, { b with link := { b.link with channel } })

/-- Lists the tools again. The catalogue stays as it is if that fails. -/
def refresh (b : Bridge) : Except BridgeError (List Tool) × Bridge :=
  match b.link.hold (Dialogue.listTools b.config) with
  | (.ok tools, link) => (.ok tools, { b with link, tools })
  | (.error error, link) => (.error error, { b with link })

/-- The first tool of the catalogue with a name. -/
def tool? (b : Bridge) (name : String) : Option Tool :=
  b.tools.find? (·.name = name)

/-- Closes the channel and ends the server. Doing it again has no effect. -/
def shutdown (b : Bridge) : Bridge :=
  if b.isShut then b else { b with link := b.link.close, isShut := true }

def inspect (b : Bridge) : String :=
  let server := described "Implementation"
    [("name", quoted b.server.implementation.name),
      ("version", quoted b.server.implementation.version)] false
  described "Bridge"
    [("id", s!"BridgeId({b.id.uuid})"), ("command", quoted b.config.commandLine),
      ("server", server), ("open", toString b.isOpen)] false

end Bridge

end Turnstile
