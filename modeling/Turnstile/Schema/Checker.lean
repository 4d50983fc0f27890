import Turnstile.Json.Equivalent
import Turnstile.Pattern.Reader
import Turnstile.Schema.Draft
import Turnstile.Schema.Violation

/-!
This module contains the meaning of the keywords of JSON Schema. A checker lists the violations that it
finds in a document; a keyword is a checker made from its value and from the checkers of subschemas.
-/

namespace Turnstile

abbrev Checker := Json → Place → List Violation

namespace Checker

def always : Checker := fun _ _ => []

/-- Accepts no document. -/
def never : Checker := fun d p => [p.violation s!"False schema does not allow {d.compact}"]

def accepts (c : Checker) (d : Json) : Bool :=
  (c d .root).isEmpty

/-- All violations of several checkers, one after the other. -/
def all (checkers : List Checker) : Checker := fun d p =>
  checkers.flatMap fun c => c d p

def within (keys : List String) (c : Checker) : Checker := fun d p =>
  c d (keys.foldl Place.under p)

/-- A keyword that holds a condition against the document as a whole. -/
def keyword (key : String) (holds : Json → Bool) (message : Json → String) : Checker := fun d p =>
  if holds d then [] else [(p.under key).violation (message d)]

def type (draft : Schema.Draft) (kinds : List Schema.Kind) : Checker :=
  keyword "type" (fun d => kinds.any (draft.holds · d)) fun d =>
    let kinds := Schema.Kind.all.filter kinds.contains
    let names := kinds.map fun kind => "\"" ++ kind.name ++ "\""
    match names with
    | [name] => s!"{d.compact} is not of type {name}"
    | names => s!"{d.compact} is not of types " ++ String.intercalate ", " names

def epsilon : Rat := mkRat 1 Double.leadingBit

/--
A number is as good as the constant when it is nearer to it than `epsilon`, after the difference has been rounded to
a double.
-/
def matchesConst (value : Json) (d : Json) : Bool :=
  match value, d with
  | .number a, .number b =>
    (a.toDouble.sub? b.toDouble).any fun distance => -epsilon < distance.toRat && distance.toRat < epsilon
  | value, d => value.equivalent d

def const (value : Json) : Checker :=
  keyword "const" (matchesConst value) fun _ => s!"{value.compact} was expected"

def enum (values : List Json) : Checker :=
  keyword "enum" (fun d => values.any d.equivalent) fun d =>
    s!"{d.compact} is not one of {(Json.list values).compact}"

/-- A condition on numbers, which other documents meet. -/
def onNumber (holds : Number → Bool) : Json → Bool
  | .number n => holds n
  | _ => true

def onString (holds : String → Bool) : Json → Bool
  | .string s => holds s
  | _ => true

def onList (holds : List Json → Bool) : Json → Bool
  | .list items => holds items
  | _ => true

def onObject (holds : List (String × Json) → Bool) : Json → Bool
  | .object members => holds members
  | _ => true

def minimum (limit : Number) : Checker :=
  keyword "minimum" (onNumber fun n => limit.toRat ≤ n.toRat) fun d =>
    s!"{d.compact} is less than the minimum of {limit.text}"

def maximum (limit : Number) : Checker :=
  keyword "maximum" (onNumber fun n => n.toRat ≤ limit.toRat) fun d =>
    s!"{d.compact} is greater than the maximum of {limit.text}"

def exclusiveMinimum (limit : Number) : Checker :=
  keyword "exclusiveMinimum" (onNumber fun n => limit.toRat < n.toRat) fun d =>
    s!"{d.compact} is less than or equal to the minimum of {limit.text}"

def exclusiveMaximum (limit : Number) : Checker :=
  keyword "exclusiveMaximum" (onNumber fun n => n.toRat < limit.toRat) fun d =>
    s!"{d.compact} is greater than or equal to the maximum of {limit.text}"

/-- Divisors are written out in full, whole ones without a point. -/
def divisorLayout : Decimal.Layout :=
  { lowest := -400, highest := 400, point := false }

/--
A whole divisor has to divide exactly. For any other one the quotient is rounded to a double first, and
a fractional part below `epsilon` counts as none. Where no double is large enough for the quotient, the
shortest decimals of both are divided.
-/
def isMultiple (divisor : Double) (n : Number) : Bool :=
  let x := n.toDouble
  if divisor.toRat.isInt then
    (x.toRat / divisor.toRat).isInt
  else
    match x.div? divisor with
    | none => (x.shortest.toRat / divisor.shortest.toRat).isInt
    | some quotient =>
      let q := quotient.toRat
      let whole : Int := if q < 0 then -(-q).floor else q.floor
      q - whole < epsilon

def multipleOf (divisor : Double) : Checker :=
  keyword "multipleOf" (onNumber (isMultiple divisor)) fun d =>
    s!"{d.compact} is not a multiple of {divisor.render divisorLayout}"

def counted (n : Nat) (one many : String) : String :=
  if n = 1 then s!"{n} {one}" else s!"{n} {many}"

def minLength (n : Nat) : Checker :=
  keyword "minLength" (onString fun s => n ≤ s.length) fun d =>
    s!"{d.compact} is shorter than " ++ counted n "character" "characters"

def maxLength (n : Nat) : Checker :=
  keyword "maxLength" (onString fun s => s.length ≤ n) fun d =>
    s!"{d.compact} is longer than " ++ counted n "character" "characters"

def minItems (n : Nat) : Checker :=
  keyword "minItems" (onList fun items => n ≤ items.length) fun d =>
    s!"{d.compact} has less than " ++ counted n "item" "items"

def maxItems (n : Nat) : Checker :=
  keyword "maxItems" (onList fun items => items.length ≤ n) fun d =>
    s!"{d.compact} has more than " ++ counted n "item" "items"

def minProperties (n : Nat) : Checker :=
  keyword "minProperties" (onObject fun members => n ≤ members.length) fun d =>
    s!"{d.compact} has less than " ++ counted n "property" "properties"

def maxProperties (n : Nat) : Checker :=
  keyword "maxProperties" (onObject fun members => members.length ≤ n) fun d =>
    s!"{d.compact} has more than " ++ counted n "property" "properties"

def pattern (text : String) (p : Pattern) : Checker :=
  keyword "pattern" (onString p.occursIn) fun d => s!"{d.compact} does not match \"{text}\""

def uniqueItems : Checker :=
  keyword "uniqueItems" (onList Json.areDistinct) fun d => s!"{d.compact} has non-unique elements"

/-- One violation for each name that is missing, in the order of the names. -/
def missing (names : List String) : Checker := fun d p =>
  match d with
  | .object members =>
    (names.filter fun name => (members.lookup name).isNone).map fun name =>
      p.violation s!"{Json.quote name} is a required property"
  | _ => []

def required (names : List String) : Checker := fun d p =>
  missing names d (p.under "required")

def dependentRequired (key : String) (dependencies : List (String × List String)) : Checker :=
  fun d p => dependencies.flatMap fun (name, names) =>
    if (d.get? name).isSome then missing names d (p.under key) else []

def notContained (d : Json) : String :=
  s!"None of {d.compact} are valid under the given schema"

/--
Bounds are at fault where there are any, the upper one first. Without a lower bound one item is needed.
-/
def contains (item : Checker) (least most : Option Nat) : Checker := fun d p =>
  match d with
  | .list items =>
    let found := (items.filter item.accepts).length
    let fault (key : String) := [(p.under key).violation (notContained d)]
    match least, most with
    | none, none => if found = 0 then fault "contains" else []
    | some least, none => if found < least then fault "minContains" else []
    | none, some most => if found = 0 || most < found then fault "maxContains" else []
    | some least, some most =>
      if most < found then fault "maxContains"
      else if found < least then fault "minContains"
      else []
  | _ => []

def anyOf (branches : List Checker) : Checker :=
  keyword "anyOf" (fun d => branches.any (·.accepts d)) fun d =>
    s!"{d.compact} is not valid under any of the schemas listed in the 'anyOf' keyword"

def oneOf (branches : List Checker) : Checker := fun d p =>
  match (branches.filter (·.accepts d)).length with
  | 1 => []
  | 0 => [(p.under "oneOf").violation
      s!"{d.compact} is not valid under any of the schemas listed in the 'oneOf' keyword"]
  | _ => [(p.under "oneOf").violation
      s!"{d.compact} is valid under more than one of the schemas listed in the 'oneOf' keyword"]

def allOf (branches : List Checker) : Checker := fun d p =>
  branches.zipIdx.flatMap fun (branch, i) => branch d ((p.under "allOf").under (toString i))

def not (schema : Json) (body : Checker) : Checker :=
  keyword "not" (fun d => !body.accepts d) fun d => s!"{schema.compact} is not allowed for {d.compact}"

/-- The condition itself is not reported, only the branch that it leads to. -/
def conditional (condition yes no : Checker) : Checker := fun d p =>
  if condition.accepts d then yes d (p.under "then") else no d (p.under "else")

/-- The items after the first `skipped` ones. -/
def items (key : String) (skipped : Nat) (item : Checker) : Checker := fun d p =>
  match d with
  | .list values =>
    (values.zipIdx.drop skipped).flatMap fun (value, i) =>
      item value ((p.into (toString i)).under key)
  | _ => []

/-- The first items, each against a schema of its own. -/
def tuple (key : String) (checkers : List Checker) : Checker := fun d p =>
  match d with
  | .list values =>
    (values.zip checkers).zipIdx.flatMap fun ((value, item), i) =>
      item value (((p.into (toString i)).under key).under (toString i))
  | _ => []

/-- What is unexpected, in parentheses. -/
def unexpected (parts : List String) : String :=
  let verb := if parts.length = 1 then "was" else "were"
  "(" ++ String.intercalate ", " parts ++ s!" {verb} unexpected)"

/-- Allows `allowed` items, and reports all others together. -/
def noAdditionalItems (allowed : Nat) : Checker :=
  keyword "additionalItems" (onList fun values => values.length ≤ allowed) fun d =>
    "Additional items are not allowed " ++
      unexpected ((d.list?.getD []).drop allowed |>.map Json.compact)

/-- Checkers of properties, by name. -/
abbrev Named := List (String × Checker)

abbrev Matched := List (String × Pattern × Checker)

def property (name : String) (body : Checker) (value : Json) (p : Place) : List Violation :=
  body value (((p.into name).under "properties").under name)

/-- The violations of a property under all patterns that its name matches. -/
def matching (patterns : Matched) (name : String) (value : Json) (p : Place) : List Violation :=
  patterns.flatMap fun (text, pattern, body) =>
    if pattern.occursIn name then
      body value (((p.into name).under "patternProperties").under text)
    else
      []

def properties (named : Named) : Checker := fun d p =>
  named.flatMap fun (name, body) =>
    match d.get? name with
    | some value => property name body value p
    | none => []

def patternProperties (patterns : Matched) : Checker := fun d p =>
  match d with
  | .object members =>
    patterns.flatMap fun pattern =>
      members.flatMap fun (name, value) => matching [pattern] name value p
  | _ => []

def declares (named : Named) (patterns : Matched) (name : String) : Bool :=
  (named.lookup name).isSome || patterns.any fun (_, pattern, _) => pattern.occursIn name

def declared (named : Named) (patterns : Matched) (name : String) (value : Json) (p : Place) :
    List Violation :=
  (match named.lookup name with
    | some body => property name body value p
    | none => []) ++ matching patterns name value p

/-- Checks declared properties, and all others against one schema. -/
def additional (named : Named) (patterns : Matched) (rest : Checker) : Checker := fun d p =>
  match d with
  | .object members =>
    members.flatMap fun (name, value) =>
      if declares named patterns name then declared named patterns name value p
      else rest value ((p.into name).under "additionalProperties")
  | _ => []

/-- Checks declared properties, and reports all others together at the end. -/
def closed (named : Named) (patterns : Matched) : Checker := fun d p =>
  match d with
  | .object members =>
    let extra := (members.filter fun (name, _) => !declares named patterns name).map fun (name, _) =>
      "'" ++ name ++ "'"
    members.flatMap (fun (name, value) => declared named patterns name value p) ++
      (if extra.isEmpty then [] else
        [(p.under "additionalProperties").violation <|
          "Additional properties are not allowed " ++ unexpected extra])
  | _ => []

/-- Allows no property at all, and reports the first one. -/
def propertyless : Checker := fun d p =>
  match d with
  | .object ((_, value) :: _) => never value (p.under "additionalProperties")
  | _ => []

def propertyNames (body : Checker) : Checker := fun d p =>
  match d with
  | .object members =>
    members.flatMap fun (name, _) => body (.string name) (p.under "propertyNames")
  | _ => []

/-- Allows no property name at all. -/
def nameless : Checker := fun d p =>
  match d with
  | .object (_ :: _) => never d (p.under "propertyNames")
  | _ => []

/-- Holds a schema against objects that have a property. -/
def dependentSchemas (key : String) (named : Named) : Checker := fun d p =>
  named.flatMap fun (name, body) =>
    if (d.get? name).isSome then body d ((p.under key).under name) else []

end Checker

end Turnstile
