import Turnstile.Json.Printer
import Turnstile.Json.Reader
import Turnstile.Json.Record

/-!
This module contains calls of tools, and the values that their results stand for.
-/

namespace Turnstile

open Document Fields Json

structure ToolCall where
  name : String
  arguments : Json
  deriving DecidableEq

namespace ToolCall

instance : Document ToolCall where
  encode c := .object [("name", .string c.name), ("arguments", c.arguments)]
  decode := Fields.decode <| mk <$> required "name" <*> defaulted "arguments" (.object [])

def params (call : ToolCall) : Json :=
  .object [("arguments", call.arguments), ("name", .string call.name)]

end ToolCall

inductive ToolCalls where
  | one (call : ToolCall)
  | many (calls : List ToolCall)
  deriving DecidableEq

/-- What can be read as a single call is one. Nothing of the document is passed over. -/
instance : Document ToolCalls where
  encode
    | .one call => encode call
    | .many calls => encode calls
  decode value := do
    let value ← require value.json?
    match (ofJson value : Except Fault ToolCall) with
    | .ok call => .ok (.one call)
    | .error _ => ToolCalls.many <$> ofJson value

namespace ToolResult

/-- An object with nothing but a `result` stands for that result. -/
def unwrap : Json → Json
  | .object [("result", value)] => value
  | other => other

def contentValue (item : Json) : Json :=
  match (item.get? "text").bind string? with
  | some text => (Json.parse? text).getD (.string text)
  | none => item

def content (result : Json) : List Json :=
  ((result.get? "content").bind list?).getD []

/-- The texts of the content, or else the whole result. -/
def errorText (result : Json) : String :=
  match (content result).filterMap fun item => (item.get? "text").bind string? with
  | [] => result.compact
  | texts => String.intercalate "\n" texts

def isError (result : Json) : Bool :=
  ((result.get? "isError").bind bool?).getD false

/--
The value that a result stands for, or the text of the error that it reports. Structured content goes
before other content; several parts make a list.
-/
def value (result : Json) : Except String Json :=
  if isError result then .error (errorText result)
  else
    match result.get? "structuredContent" with
    | some structured => .ok (unwrap structured)
    | none =>
      match (content result).map contentValue with
      | [] => .ok .null
      | [part] => .ok part
      | parts => .ok (.list parts)

end ToolResult

end Turnstile
