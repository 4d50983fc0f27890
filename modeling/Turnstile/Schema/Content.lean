import Turnstile.Json.Reader
import Turnstile.Schema.Checker
import Turnstile.Text.Base64

/-!
This module contains the keywords about what is written in strings: JSON, base64, or one in the other.
-/

namespace Turnstile

namespace Checker

def isJson (text : String) : Bool :=
  (Json.parse? text).isSome

def contentViolation (d : Json) (name what : String) : String :=
  s!"{d.compact} is not compliant with {Json.quote name} {what}"

/-- Base64 is the only encoding that is looked at. -/
def contentEncoding (encoding : Json) : Checker :=
  if encoding = .string "base64" then
    keyword "contentEncoding" (onString fun s => (Base64.decode? s.toList).isSome) fun d =>
      contentViolation d "base64" "content encoding"
  else
    always

def decoded? (d : Json) : Option String := do
  let bytes ← Base64.decode? (← d.string?).toList
  String.fromUTF8? ⟨bytes.toArray⟩

/-- JSON is the only media type that is looked at, unless it is in an encoding that is not known. -/
def contentMediaType (media : Json) (encoding : Option Json) : Checker :=
  let json := "application/json"
  if media ≠ .string json then
    always
  else
    match encoding with
    | none => keyword "contentMediaType" (onString isJson) fun d => contentViolation d json "media type"
    | some encoding => fun d p =>
      if encoding ≠ .string "base64" || d.string?.isNone then []
      else
        match decoded? d with
        | none => [(p.under "contentEncoding").violation (contentViolation d "base64" "content encoding")]
        | some text =>
          if isJson text then []
          else [(p.under "contentMediaType").violation (contentViolation d json "media type")]

end Checker

end Turnstile
