import Turnstile.Schema.Keyword

/-!
This module contains the test whether a document is a schema of a draft. All subschemas are held to the
draft of the schema around them, also those that name another one.
-/

namespace Turnstile

namespace Schema

/-- In the eldest draft the flags for exclusive bounds stand beside the bounds. -/
def boundsPaired (draft : Draft) (members : List (String × Json)) : Bool :=
  let has (key : String) : Bool := (members.lookup key).isSome
  draft ≠ .draft4 || ((!has "exclusiveMaximum" || has "maximum") &&
    (!has "exclusiveMinimum" || has "minimum"))

mutual

def conforms (draft : Draft) : Json → Bool
  | .bool _ => draft ≠ .draft4
  | .object members =>
    (Draft.ofSchema? draft (.object members)).isSome && boundsPaired draft members &&
      membersConform draft members
  | _ => false

def membersConform (draft : Draft) : List (String × Json) → Bool
  | [] => true
  | (key, value) :: rest =>
    (match Form.ofKeyword draft key with
      | .schema => conforms draft value
      | .schemaOrFlag => value.bool?.isSome || conforms draft value
      | .schemas =>
        match value with
        | .list (first :: others) => allConform draft (first :: others)
        | _ => false
      | .schemaOrSchemas =>
        match value with
        | .list items => !items.isEmpty && allConform draft items
        | value => conforms draft value
      | .schemaMap =>
        match value with
        | .object entries => entriesConform draft entries
        | _ => false
      | .patternMap =>
        match value with
        | .object entries =>
          (entries.all fun (text, _) => isPattern text) && entriesConform draft entries
        | _ => false
      | .dependencies further =>
        match value with
        | .object entries => dependenciesConform draft further entries
        | _ => false
      | form => form.holds draft value) &&
    membersConform draft rest

def allConform (draft : Draft) : List Json → Bool
  | [] => true
  | schema :: rest => conforms draft schema && allConform draft rest

def entriesConform (draft : Draft) : List (String × Json) → Bool
  | [] => true
  | (_, schema) :: rest => conforms draft schema && entriesConform draft rest

def dependenciesConform (draft : Draft) (further : Form) : List (String × Json) → Bool
  | [] => true
  | (_, value) :: rest =>
    (further.holds draft value || conforms draft value) && dependenciesConform draft further rest

end

end Schema

end Turnstile
