import Turnstile.Json.Printer
import Turnstile.Json.Reader
import Turnstile.Rpc.Message
import Turnstile.Server.Effect
import Turnstile.Server.Files
import Turnstile.Text.Blank

/-!
This module contains the practice server: a tool server with a few simple tools, for trying out what talks
to tool servers. Calls run side by side, so that their responses can come in any order.
-/

namespace Turnstile

namespace Practice

def name : String := "trellis-mock-server"

def version : String := "0.1.0"

structure Options where
  refuses : Bool
  roundTrip : Bool
  loops : Bool
  numberFile : Option String
  deriving DecidableEq, Repr

namespace Options

def standard : Options :=
  ⟨false, false, false, none⟩

instance : Inhabited Options := ⟨standard⟩

/-- Can the argument be the value of the option before it? -/
def isValue (argument : String) : Bool :=
  argument = "-" || (argument ≠ "" && !argument.startsWith "-")

/-- A file can be given once, and its name is not empty. -/
def setFile (options : Options) (path : String) : Option Options :=
  if options.numberFile.isSome || path = "" then none
  else some { options with numberFile := some path }

/-- An option without a value, which can be given once. -/
def setFlag (options : Options) : String → Option Options
  | "--fail-init" => if options.refuses then none else some { options with refuses := true }
  | "--roundtrip" => if options.roundTrip then none else some { options with roundTrip := true }
  | "--loop-cursor" => if options.loops then none else some { options with loops := true }
  | _ => none

/-- Reads arguments, if they are in order. -/
def read (options : Options) : List String → Option Options
  | [] | ["--"] => some options
  | "--pid-file" :: path :: rest =>
    if isValue path then (options.setFile path).bind (·.read rest) else none
  | argument :: rest =>
    match argument.dropPrefix? "--pid-file=" with
    | some path => (options.setFile path.toString).bind (·.read rest)
    | none => (options.setFlag argument).bind (·.read rest)

def ofArguments? (arguments : List String) : Option Options :=
  standard.read arguments

end Options

/-! ## Messages -/

def respond (id result : Json) : Effect :=
  .line (Json.compact (.object [("id", id), ("jsonrpc", Rpc.version), ("result", result)]))

def fail (id : Json) (code : Int64) (message : String) : Effect :=
  .line (Json.compact (.object [
    ("error", .object [("code", .number (.ofInt64 code)), ("message", message)]), ("id", id),
    ("jsonrpc", Rpc.version)]))

def notify (method : String) (params : Json) : Effect :=
  .line (Json.compact (.object [("jsonrpc", Rpc.version), ("method", method), ("params", params)]))

def request (id method : String) : Effect :=
  .line (Json.compact (.object [("id", id), ("jsonrpc", Rpc.version), ("method", method)]))

def textResult (text : String) (more : List (String × Json)) : Json :=
  .ofMembers (("content", .list [.object [("text", text), ("type", "text")]]) :: more)

/-! ## Tools -/

def objectSchema (properties : List (String × Json)) (required : List String) : Json :=
  .object <|
    (if properties.isEmpty then [] else [("properties", Json.object properties)]) ++
      (if required.isEmpty then [] else [("required", .list (required.map .string))]) ++
      [("type", .string "object")]

def ofType (type : String) : Json :=
  .object [("type", type)]

def tool (name description : String) (input : Json) (more : List (String × Json)) : Json :=
  .ofMembers ([("name", .string name), ("description", .string description),
    ("inputSchema", input)] ++ more)

def tools (options : Options) : List Json :=
  [tool "echo" "Echo a message back." (objectSchema [("message", ofType "string")] ["message"]) [],
    tool "add" "Add two integers."
      (objectSchema [("a", ofType "integer"), ("b", ofType "integer")] ["a", "b"])
      [("outputSchema", objectSchema [("result", ofType "integer")] ["result"])],
    tool "sleep" "Wait, then answer."
      (objectSchema [("ms", .object [("minimum", 0), ("type", "integer")])] ["ms"]) [],
    tool "fail" "Always reports an error." (objectSchema [("message", ofType "string")] []) []] ++
  if options.roundTrip then
    [tool "roundtrip" "Sends requests to the client and reports the replies." (objectSchema [] []) []]
  else []

def listing (options : Options) : Json :=
  .object <| (if options.loops then [("nextCursor", .string "again")] else []) ++
    [("tools", .list (tools options))]

def introduction (params : Json) : Json :=
  .object [
    ("capabilities", .object [("tools", .object [])]),
    ("protocolVersion", (params.get? "protocolVersion").getD "2024-11-05"),
    ("serverInfo", .object [("name", name), ("version", version)])]

/-! ## The server -/

/-- How far a call has come that sends two requests back, one after the other. -/
inductive RoundTrip where
  | first (id : Json)
  | second (id ping : Json)
  deriving DecidableEq

structure Server where
  options : Options
  /-- The calls that wait for replies, by the identifiers of their requests. -/
  waiting : Table RoundTrip

namespace Server

/--
Lets a call wait for the reply to its request. If another call waits for a reply with this identifier, it
does not get it any more and goes on with `null`.
-/
def wait (s : Server) (key method : String) (call : RoundTrip) :
    Server × List Effect × Option RoundTrip :=
  ({ s with waiting := s.waiting.insert key call }, [request key method], s.waiting.get? key)

def finish (id ping other : Json) : Effect :=
  respond id (.object [("content", .list []),
    ("structuredContent", .object [("other", other), ("ping", ping)])])

def askAgain (s : Server) (id ping : Json) : Server × List Effect :=
  let (s, effects, replaced) := s.wait "srv-2" "sampling/createMessage" (.second id ping)
  match replaced with
  | some (.second id ping) => (s, effects ++ [finish id ping .null])
  | _ => (s, effects)

def resume (s : Server) (call : RoundTrip) (reply : Json) : Server × List Effect :=
  match call with
  | .first id => s.askAgain id reply
  | .second id ping => (s, [finish id ping reply])

def askFirst (s : Server) (id : Json) : Server × List Effect :=
  let (s, effects, replaced) := s.wait "srv-1" "ping" (.first id)
  match replaced with
  | some call =>
    let (s, more) := s.resume call .null
    (s, effects ++ more)
  | none => (s, effects)

/-- The member of the arguments as an integer, if it is one that fits into 64 bits. -/
def integer (arguments : Json) (name : String) : Int64 :=
  match arguments.get? name with
  | some (.number n) => n.toInt64?.getD 0
  | _ => 0

def text? (arguments : Json) (name : String) : Option String :=
  (arguments.get? name).bind Json.string?

def callTool (s : Server) (id : Json) (name : String) (arguments : Json) : Server × Reaction :=
  let answer (result : Json) : Server × Reaction := (s, [(respond id result).atOnce])
  match name with
  | "echo" => answer (textResult ((text? arguments "message").getD "") [])
  | "add" =>
    let sum := integer arguments "a" + integer arguments "b"
    answer (textResult (toString sum.toInt)
      [("structuredContent", .object [("result", .number (.ofInt64 sum))])])
  | "sleep" =>
    let time := match arguments.get? "ms" with
      | some (.number n) => (n.toUInt64?.getD 0).toNat
      | _ => 0
    (s, [(.ofMilliseconds time, respond id (textResult s!"slept {time}" []))])
  | "fail" =>
    answer (textResult ((text? arguments "message").getD "tool failed") [("isError", true)])
  | _ =>
    if name = "roundtrip" && s.options.roundTrip then
      let (s, effects) := s.askFirst id
      (s, effects.map (·.atOnce))
    else (s, [(fail id (-32602) s!"Unknown tool: {name}").atOnce])

def call (s : Server) (id params : Json) : Server × Reaction :=
  let name := (text? params "name").getD ""
  let note := notify "notifications/message"
    (.object [("data", s!"calling {name}"), ("level", "info")])
  let (s, reaction) := s.callTool id name ((params.get? "arguments").getD (.object []))
  (s, note.atOnce :: reaction)

def answer (s : Server) (id : Json) (method : String) (params : Json) : Server × Reaction :=
  let reply (effect : Effect) : Server × Reaction := (s, [effect.atOnce])
  match method with
  | "initialize" =>
    reply (if s.options.refuses then fail id (-32603) "initialization refused"
      else respond id (introduction params))
  | "ping" => reply (respond id (.object []))
  | "tools/list" => reply (respond id (listing s.options))
  | "tools/call" => s.call id params
  | _ => reply (fail id Rpc.methodNotFound s!"Method not found: {method}")

def keyOf : Json → String
  | .string id => id
  | id => id.compact

/-- Gives the message to the call that waits for it, if there is one. -/
def takeReply (s : Server) (key : String) (message : Json) : Server × Reaction :=
  match s.waiting.get? key with
  | some call =>
    let (s, effects) := { s with waiting := s.waiting.erase key }.resume call message
    (s, effects.map (·.atOnce))
  | none => (s, [])

def handle (s : Server) (message : Json) : Server × Reaction :=
  match (message.get? "method").bind Json.string?, Rpc.Incoming.identifier? message with
  | none, some id => s.takeReply (keyOf id) message
  | some method, none => (s, [(Effect.note s!"notification {method}").atOnce])
  | some method, some id => s.answer id method ((message.get? "params").getD .null)
  | none, none => (s, [(Effect.note s!"ignoring {message.compact}").atOnce])

def hear (s : Server) (line : String) : Server × Reaction :=
  if isBlankLine line then (s, [])
  else match Json.parse? line with
    | some message => s.handle message
    | none => (s, [(Effect.note "bad line: malformed message").atOnce])

def isWaiting (s : Server) : Bool :=
  !s.waiting.isEmpty

/-- What the server does first with the number of its process. -/
def prelude (s : Server) : Reaction :=
  match s.options.numberFile with
  | none => []
  | some path =>
    match Files.nameOf? path with
    | some name => [(Effect.write name "1").atOnce]
    | none => [(Effect.note s!"Error: cannot write {path}").atOnce, (Effect.exit 1).atOnce]

end Server

def launch (arguments : List String) : Server × Reaction :=
  match Options.ofArguments? arguments with
  | some options =>
    let server : Server := ⟨options, {}⟩
    (server, server.prelude)
  | none =>
    (⟨.standard, {}⟩, [(Effect.note "error: unexpected arguments").atOnce, (Effect.exit 2).atOnce])

end Practice

end Turnstile
