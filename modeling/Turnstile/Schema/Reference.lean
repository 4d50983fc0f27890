import Turnstile.Json.Pointer

/-!
This module contains references from schemas to named definitions. A reference names a definition and
leads through a JSON pointer to a part of it.
-/

namespace Turnstile

/-- What a reference leads to: the pointer is empty for a whole definition. -/
structure Reference where
  name : String
  pointer : String
  deriving DecidableEq, Repr

namespace Reference

def occurs (part : List Char) : List Char → Bool
  | [] => part.isEmpty
  | c :: rest => part.isPrefixOf (c :: rest) || occurs part rest

def after? (start : List Char) (text : List Char) : Option (List Char) :=
  if start.isPrefixOf text then some (text.drop start.length) else none

def defsStart : List Char := "#/$defs/".toList

def definitionsStart : List Char := "#/definitions/".toList

/-- References to other documents are not followed. -/
def isRemote (text : List Char) : Bool :=
  occurs "://".toList text || ".json".toList.isSuffixOf text

/--
Reads `#/$defs/<name>`, `#/definitions/<name>`, each with a pointer behind it, or a bare name. All
other pointers into the document and references to other documents are refused.
-/
def ofChars? (text : List Char) : Option Reference :=
  if isRemote text then
    none
  else
    match (after? defsStart text).or (after? definitionsStart text) with
    | some rest =>
      let name := rest.takeWhile (· ≠ '/')
      let pointer := rest.dropWhile (· ≠ '/')
      if name = [] then none
      else some ⟨String.ofList (Pointer.unescape name), String.ofList pointer⟩
    | none =>
      if text = [] || text.head? = some '#' then none else some ⟨String.ofList text, ""⟩

def ofText? (text : String) : Option Reference :=
  ofChars? text.toList

def canonical (r : Reference) : String :=
  String.ofList (defsStart ++ Pointer.escape r.name.toList ++ r.pointer.toList)

instance : ToString Reference := ⟨canonical⟩

end Reference

end Turnstile
