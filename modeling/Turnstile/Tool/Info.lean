import Turnstile.Json.Printer
import Turnstile.Json.Record

/-!
This module contains what tool servers say about themselves and about their tools.
-/

namespace Turnstile

open Document Fields Json

structure Implementation where
  name : String
  version : String
  deriving DecidableEq, Repr

namespace Implementation

instance : Inhabited Implementation := ⟨⟨"", ""⟩⟩

instance : Document Implementation where
  encode i := .object [("name", .string i.name), ("version", .string i.version)]
  decode := Fields.decode <| mk <$> defaulted "name" "" <*> defaulted "version" ""

end Implementation

structure ServerInfo where
  protocolVersion : String
  capabilities : Json
  implementation : Implementation
  instructions : Option String
  deriving DecidableEq

instance : Document ServerInfo where
  encode s := .object <|
    [("protocolVersion", .string s.protocolVersion), ("capabilities", s.capabilities),
      ("serverInfo", encode s.implementation)] ++
      optionalMember "instructions" s.instructions
  decode := Fields.decode <| ServerInfo.mk <$> defaulted "protocolVersion" "" <*>
    defaulted "capabilities" .null <*> defaulted "serverInfo" default <*> optional "instructions"

structure Tool where
  name : String
  description : Option String
  inputSchema : Json
  /-- The schema of structured results, if the tool declares one. -/
  outputSchema : Option Json
  deriving DecidableEq

namespace Tool

/-- The arguments of a tool that does not say what it takes. -/
def anyArguments : Json :=
  .object [("type", "object")]

def describe (t : Tool) : String :=
  match t.description with
  | some description =>
    s!"Tool {t.name}: {description} Arguments: {t.inputSchema.compact}"
  | none => s!"Tool {t.name}. Arguments: {t.inputSchema.compact}"

instance : Document Tool where
  encode t := .object <|
    [("name", .string t.name)] ++ optionalMember "description" t.description ++
      [("inputSchema", t.inputSchema)] ++ optionalMember "outputSchema" t.outputSchema
  decode := Fields.decode <| mk <$> required "name" <*> optional "description" <*>
    defaulted "inputSchema" anyArguments <*> optional "outputSchema"

end Tool

structure ToolsPage where
  tools : List Tool
  next : Option String
  deriving DecidableEq

instance : Document ToolsPage where
  encode p := .object <| [("tools", encode p.tools)] ++ optionalMember "nextCursor" p.next
  decode := Fields.decode <| ToolsPage.mk <$> defaulted "tools" [] <*> optional "nextCursor"

end Turnstile
