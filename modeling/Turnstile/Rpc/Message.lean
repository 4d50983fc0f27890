import Turnstile.Json.Printer
import Turnstile.Json.Record

/-!
This module contains the messages of JSON-RPC: requests, notifications and responses, each one line of
text, and the classification of the lines that a peer sends.
-/

namespace Turnstile

open Document Fields Json

namespace Rpc

def version : String := "2.0"

/-- The code of the error for a method that the receiver does not have. -/
def methodNotFound : Int64 := -32601

structure Request where
  version : String
  id : UInt64
  method : String
  params : Option Json
  deriving DecidableEq

namespace Request

def new (id : UInt64) (method : String) (params : Option Json) : Request :=
  ⟨Rpc.version, id, method, params⟩

instance : Document Request where
  encode r := .object <|
    [("jsonrpc", .string r.version), ("id", encode r.id), ("method", .string r.method)] ++
      optionalMember "params" r.params
  decode := Fields.decode <| mk <$> required "jsonrpc" <*> required "id" <*> required "method" <*>
    optional "params"

end Request

structure Notification where
  version : String
  method : String
  params : Option Json
  deriving DecidableEq

namespace Notification

def new (method : String) (params : Option Json) : Notification :=
  ⟨Rpc.version, method, params⟩

instance : Document Notification where
  encode n := .object <|
    [("jsonrpc", .string n.version), ("method", .string n.method)] ++
      optionalMember "params" n.params
  decode := Fields.decode <| mk <$> required "jsonrpc" <*> required "method" <*> optional "params"

end Notification

structure Error where
  code : Int64
  message : String
  data : Option Json
  deriving DecidableEq

namespace Error

def describe (e : Error) : String :=
  s!"{e.message} (code {e.code.toInt})"

instance : ToString Error := ⟨describe⟩

instance : Document Error where
  encode e := .object <|
    [("code", encode e.code), ("message", .string e.message)] ++ optionalMember "data" e.data
  decode := Fields.decode <| mk <$> required "code" <*> required "message" <*> optional "data"

end Error

structure Response where
  version : String
  id : Json
  result : Option Json
  error : Option Error
  deriving DecidableEq

namespace Response

def success (id result : Json) : Response :=
  ⟨Rpc.version, id, some result, none⟩

def failure (id : Json) (code : Int64) (message : String) : Response :=
  ⟨Rpc.version, id, none, some ⟨code, message, none⟩⟩

/-- An error goes before a result, and a response with neither is `null`. -/
def outcome (r : Response) : Except Error Json :=
  match r.error with
  | some error => .error error
  | none => .ok (r.result.getD .null)

/-- The identifier, if it can be one of a request of this side. -/
def id? (r : Response) : Option UInt64 :=
  match r.id with
  | .number n => n.toUInt64?
  | _ => none

instance : Document Response where
  encode r := .object <|
    [("jsonrpc", .string r.version), ("id", r.id)] ++ optionalMember "result" r.result ++
      optionalMember "error" r.error
  decode := Fields.decode <| mk <$> required "jsonrpc" <*> required "id" <*> optional "result" <*>
    optional "error"

end Response

/-- Why a line is not a message. -/
inductive MessageFault where
  | notAnObject
  /-- The members fit no kind of message. -/
  | noKind
  /-- The line is not JSON, or the message is a response with a wrong member. -/
  | malformed
  deriving DecidableEq, Repr

namespace MessageFault

def reason : MessageFault → String
  | notAnObject => "message is not an object"
  | noKind => "message is neither request, notification nor response"
  | malformed => "malformed message"

end MessageFault

inductive Incoming where
  | request (id : Json) (method : String) (params : Option Json)
  | notification (notification : Notification)
  | response (response : Response)
  deriving DecidableEq

namespace Incoming

/-- An identifier that is `null` is as good as none. -/
def identifier? (message : Json) : Option Json :=
  (message.get? "id").filter (!·.isNull)

def ofJson (message : Json) : Except MessageFault Incoming :=
  if !message.isObject then .error .notAnObject
  else
    let params := message.get? "params"
    match (message.get? "method").bind string?, identifier? message with
    | some method, some id => .ok (.request id method params)
    | some method, none => .ok (.notification (.new method params))
    | none, some _ =>
      if (message.get? "result").isSome || (message.get? "error").isSome then
        match (Document.ofJson message : Except Fault Response) with
        | .ok answer => .ok (.response answer)
        | .error _ => .error .malformed
      else
        .error .noKind
    | none, none => .error .noKind

def ofLine (line : String) : Except MessageFault Incoming :=
  match Json.parse? line with
  | some message => ofJson message
  | none => .error .malformed

end Incoming

end Rpc

end Turnstile
