import Turnstile.Json.Reader
import Turnstile.Table

/-!
This module contains the documents of typed values: the class `Document` of types with a JSON form, and
the fields of records, which are either the members of an object or the items of a list in the order in
which the fields are declared. Of several faults in a document the first one counts.
-/

namespace Turnstile

/-- Why a JSON value is not the document of a type. -/
inductive Fault where
  | malformed
  | refused (reason : String)
  deriving DecidableEq, Repr

namespace Fault

def reason : Fault → String
  | malformed => "malformed document"
  | refused reason => reason

end Fault

class Document (α : Type u) where
  encode : α → Json
  decode : Written → Except Fault α

namespace Document

def ofJson [Document α] (value : Json) : Except Fault α :=
  decode value.written

/-- Reads a text as a document. What follows the document is looked at last. -/
def ofText [Document α] (text : String) : Except Fault α := do
  let (written, ended) := Json.read text
  let value ← decode written
  if ended then .ok value else .error .malformed

/-- What a partial view of a value gives, where nothing is a malformed document. -/
def require (value? : Option α) : Except Fault α :=
  match value? with
  | some value => .ok value
  | none => .error .malformed

end Document

open Document

/-- A free value, with sorted members. -/
instance : Document Json where
  encode := id
  decode value := Json.normalize <$> require value.json?

instance : Document String where
  encode := .string
  decode value := require value.string?

instance : Document Bool where
  encode := .bool
  decode value := require value.bool?

instance : Document UInt64 where
  encode n := .number (.ofUInt64 n)
  decode value := require (value.number?.bind Number.toUInt64?)

instance : Document UInt32 where
  encode n := .number (.ofUInt64 n.toUInt64)
  decode value := do
    let n : UInt64 ← decode value
    if n.toNat < UInt32.size then .ok n.toUInt32 else .error .malformed

instance : Document Int64 where
  encode n := .number (.ofInt64 n)
  decode value := require (value.number?.bind Number.toInt64?)

instance [Document α] : Document (List α) where
  encode values := .list (values.map encode)
  decode value := do (← require value.list?).mapM decode

/-- A table in the order of its document. -/
instance [Document α] : Document (Table α) where
  encode table := .object (table.entries.map fun (name, value) => (name, encode value))
  decode
    | .object members => do
      let entries ← members.mapM fun (name, value) => do return (← require name, ← decode value)
      return .ofList entries
    | _ => .error .malformed

structure Given where
  /-- The value of each field, with its position in the document. -/
  values : List (String × Nat × Written)
  /-- The first fault beside the fields. -/
  fault? : Option Nat
  /-- The position after all members or items. -/
  finish : Nat

namespace Given

/--
The members of an object from a position on. Unknown members are passed over; a field that was given
before is a fault.
-/
def ofMembers (names : List String) (position : Nat) (seen : List String) :
    List (Option String × Written) → Given
  | [] => ⟨[], none, position⟩
  | (key, value) :: rest =>
    let stop : Given := ⟨[], some position, position⟩
    match key with
    | none => stop
    | some name =>
      if names.contains name then
        if seen.contains name then stop
        else
          let later := ofMembers names (position + 1) (name :: seen) rest
          { later with values := (name, position, value) :: later.values }
      else if value.isComplete then ofMembers names (position + 1) seen rest
      else stop

/-- The items of a list, which cannot be more than there are fields. -/
def ofItems (names : List String) (items : List Written) : Given where
  values := (names.zip items).zipIdx.map fun ((name, value), position) => (name, position, value)
  fault? := if items.length ≤ names.length then none else some names.length
  finish := items.length

end Given

/-- The fields that a value is read from. A fault comes with the position at which it is found. -/
structure Fields (α : Type u) where
  names : List String
  read : Given → Except (Nat × Fault) α

namespace Fields

/-- Of two faults the one that comes first. -/
def first (a b : Nat × Fault) : Nat × Fault :=
  if b.1 < a.1 then b else a

instance : Functor Fields where
  map f x := ⟨x.names, fun given => f <$> x.read given⟩

instance : Seq Fields where
  seq f x := ⟨f.names ++ (x ()).names, fun given =>
    match f.read given, (x ()).read given with
    | .ok f, .ok x => .ok (f x)
    | .error a, .error b => .error (first a b)
    | .error a, .ok _ => .error a
    | .ok _, .error b => .error b⟩

/-- A field that is read in a way of its own, also when it is absent. -/
def single (name : String) (absent : Except Fault α) (present : Written → Except Fault α) :
    Fields α where
  names := [name]
  read given :=
    match given.values.lookup name with
    | some (position, value) => (present value).mapError (position, ·)
    | none => absent.mapError (given.finish, ·)

def required [Document α] (name : String) : Fields α :=
  single name (.error .malformed) decode

def defaulted [Document α] (name : String) (otherwise : α) : Fields α :=
  single name (.ok otherwise) decode

/-- A field that may be left out or be `null`. -/
def optional [Document α] (name : String) : Fields (Option α) :=
  single name (.ok none) fun value => if value.isNull then .ok none else some <$> decode value

def decode (fields : Fields α) (value : Written) : Except Fault α := do
  let given ←
    match value with
    | .object members => .ok (Given.ofMembers fields.names 0 [] members)
    | .list items => .ok (Given.ofItems fields.names items)
    | _ => .error .malformed
  match fields.read given, given.fault? with
  | .ok value, none => .ok value
  | .ok _, some _ => .error .malformed
  | .error a, none => .error a.2
  | .error a, some position => .error (first (position, .malformed) a).2

end Fields

namespace Json

/-- The member of an optional field, which is left out when it is absent. -/
def optionalMember [Document α] (name : String) (value? : Option α) : List (String × Json) :=
  match value? with
  | some value => [(name, encode value)]
  | none => []

def memberUnless [Document α] (condition : Bool) (name : String) (value : α) :
    List (String × Json) :=
  if condition then [] else [(name, encode value)]

end Json

end Turnstile
