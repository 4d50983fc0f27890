import Turnstile.Json.Pointer
import Turnstile.Json.Printer
import Turnstile.Json.Record

/-!
This module contains what validation finds: the ways in which a document violates a schema.
-/

namespace Turnstile

open Fields

/-- One way in which a document violates a schema. Both paths are JSON pointers. -/
structure Violation where
  path : String
  schemaPath : String
  message : String
  deriving DecidableEq

namespace Violation

def describe (v : Violation) : String :=
  (if v.path.isEmpty then "/" else v.path) ++ ": " ++ v.message

instance : ToString Violation := ⟨describe⟩

instance : Document Violation where
  encode v := .object [("path", v.path), ("schema_path", v.schemaPath), ("message", v.message)]
  decode := Fields.decode <| mk <$> required "path" <*> required "schema_path" <*>
    required "message"

end Violation

inductive Validation where
  | valid
  | invalid (violations : List Violation)
  deriving DecidableEq

namespace Validation

def isValid : Validation → Bool
  | valid => true
  | invalid _ => false

def violations : Validation → List Violation
  | valid => []
  | invalid violations => violations

def ofViolations : List Violation → Validation
  | [] => valid
  | violations => invalid violations

end Validation

/-- A place in a document together with the place in a schema that is held against it. -/
structure Place where
  /-- Keys and positions from the root of the document, the innermost first. -/
  document : List String
  /-- Keys and positions from the root of the schema, the innermost first. -/
  schema : List String

namespace Place

def root : Place :=
  ⟨[], []⟩

/-- The pointer along a path, whose innermost part comes first. -/
def pointer (path : List String) : String :=
  path.foldl (fun later key => "/" ++ Pointer.escapeText key ++ later) ""

def into (p : Place) (key : String) : Place :=
  { p with document := key :: p.document }

def under (p : Place) (key : String) : Place :=
  { p with schema := key :: p.schema }

def violation (p : Place) (message : String) : Violation :=
  ⟨pointer p.document, pointer p.schema, message⟩

end Place

end Turnstile
