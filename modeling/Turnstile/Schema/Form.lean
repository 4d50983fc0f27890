import Turnstile.Json.Equivalent
import Turnstile.Pattern.Reader
import Turnstile.Schema.Draft
import Turnstile.Schema.Kind

/-!
This module contains the form of schemas: what the values of the keywords have to be in each draft,
whether or not the keywords have a bearing on validity.
-/

namespace Turnstile

namespace Schema

inductive Form where
  | any
  | text
  | flag
  | number
  | positive
  /-- A whole number that is not negative. -/
  | count
  | pattern
  /-- A name that the schema goes by, which fits the drafts in how it starts and goes on. -/
  | anchor (starts goesOn : List Char)
  /-- An address without anything behind its fragment mark. -/
  | identifier
  | list
  /-- Different values, of which there is at least one. -/
  | choices
  | names
  /-- Different strings, of which there is at least one. -/
  | someNames
  | kinds
  | flags
  | nameMap
  | schema
  | schemaOrFlag
  /-- At least one schema. -/
  | schemas
  | schemaOrSchemas
  | schemaMap
  | patternMap
  /-- Under each name a schema, or further names. -/
  | dependencies (further : Form)

def names? (value : Json) : Option (List String) := do
  let names ← (← value.list?).mapM Json.string?
  if names.Nodup then some names else none

def number? : Json → Option Number
  | .number n => some n
  | _ => none

def countLimit : Nat := 0xffffffffffffffff

/-- A whole number that is not negative. Beyond `countLimit` all numbers count the same. -/
def count? : Json → Option Nat
  | .number n => n.toNat?.map (min countLimit)
  | _ => none

def kinds? (value : Json) : Option (List Kind) :=
  match value with
  | .string name => (Kind.ofName? name).map ([·])
  | value => do
    let kinds ← (← names? value).mapM Kind.ofName?
    if kinds.isEmpty then none else some kinds

def isPattern (text : String) : Bool :=
  (Pattern.ofText? text).isSome

namespace Form

def addressMarks : List Char := "-._~:/?#[]@!$&'()*+,;=".toList

/-- Does every percent sign stand before two hexadecimal digits, and is every other character allowed? -/
def isAddress : List Char → Bool
  | [] => true
  | '%' :: a :: b :: rest =>
    let isHex (c : Char) := c.isDigit || ('a' ≤ c && c ≤ 'f') || ('A' ≤ c && c ≤ 'F')
    isHex a && isHex b && isAddress rest
  | c :: rest => (c.isAlphanum || addressMarks.contains c) && isAddress rest

def isIdentifier (text : String) : Bool :=
  let (address, fragment) := text.toList.span (· ≠ '#')
  isAddress address && (fragment = [] || fragment = ['#'])

def holds (draft : Draft) : Form → Json → Bool
  | text, .string _ => true
  | flag, .bool _ => true
  | number, .number _ => true
  | positive, .number n => 0 < n.toRat
  | count, .number n => draft.holds .integer (.number n) && 0 ≤ n.toRat
  | pattern, .string s => isPattern s
  | anchor starts goesOn, .string s =>
    match s.toList with
    | [] => false
    | c :: rest =>
      (c.isAlpha || starts.contains c) && rest.all fun c => c.isAlphanum || goesOn.contains c
  | identifier, .string s => isIdentifier s
  | list, .list _ => true
  | choices, .list items => !items.isEmpty && Json.areDistinct items
  | names, value => (names? value).isSome
  | someNames, value => (names? value).any (!·.isEmpty)
  | kinds, value => (kinds? value).isSome
  | flags, .object members => members.all fun (_, value) => value.bool?.isSome
  | nameMap, .object members => members.all fun (_, value) => (names? value).isSome
  | any, _ => true
  | _, _ => false

end Form

end Schema

end Turnstile
