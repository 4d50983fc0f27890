import Turnstile.Json.Number

/-!
This module contains the JSON values. An object keeps its members as they stand in its document;
`Json.normalize` brings the members of every object into the order of their keys, where of members
with one key the last one stays.
-/

namespace Turnstile

inductive Json where
  | null
  | bool (value : Bool)
  | number (value : Number)
  | string (value : String)
  | list (items : List Json)
  | object (members : List (String × Json))

namespace Json

instance : Inhabited Json := ⟨.null⟩

instance : Coe String Json := ⟨.string⟩

instance : Coe Bool Json := ⟨.bool⟩

instance : Coe Number Json := ⟨.number⟩

instance : OfNat Json n := ⟨.number (OfNat.ofNat n)⟩

mutual

def decEq : (a b : Json) → Decidable (a = b)
  | .null, .null => isTrue rfl
  | .bool a, .bool b => if h : a = b then isTrue (h ▸ rfl) else isFalse (by simp [h])
  | .number a, .number b => if h : a = b then isTrue (h ▸ rfl) else isFalse (by simp [h])
  | .string a, .string b => if h : a = b then isTrue (h ▸ rfl) else isFalse (by simp [h])
  | .list a, .list b =>
    match listDecEq a b with
    | isTrue h => isTrue (h ▸ rfl)
    | isFalse h => isFalse (by simp [h])
  | .object a, .object b =>
    match membersDecEq a b with
    | isTrue h => isTrue (h ▸ rfl)
    | isFalse h => isFalse (by simp [h])
  | .null, .bool _ | .null, .number _ | .null, .string _ | .null, .list _ | .null, .object _
  | .bool _, .null | .bool _, .number _ | .bool _, .string _ | .bool _, .list _ | .bool _, .object _
  | .number _, .null | .number _, .bool _ | .number _, .string _ | .number _, .list _
  | .number _, .object _ | .string _, .null | .string _, .bool _ | .string _, .number _
  | .string _, .list _ | .string _, .object _ | .list _, .null | .list _, .bool _
  | .list _, .number _ | .list _, .string _ | .list _, .object _ | .object _, .null
  | .object _, .bool _ | .object _, .number _ | .object _, .string _ | .object _, .list _ =>
    isFalse (by simp)

def listDecEq : (a b : List Json) → Decidable (a = b)
  | [], [] => isTrue rfl
  | [], _ :: _ | _ :: _, [] => isFalse (by simp)
  | a :: as, b :: bs =>
    match decEq a b, listDecEq as bs with
    | isTrue h, isTrue hs => isTrue (by simp [h, hs])
    | isFalse h, _ => isFalse (by simp [h])
    | _, isFalse hs => isFalse (by simp [hs])

def membersDecEq : (a b : List (String × Json)) → Decidable (a = b)
  | [], [] => isTrue rfl
  | [], _ :: _ | _ :: _, [] => isFalse (by simp)
  | (k, a) :: as, (l, b) :: bs =>
    if hk : k = l then
      match decEq a b, membersDecEq as bs with
      | isTrue h, isTrue hs => isTrue (by simp [hk, h, hs])
      | isFalse h, _ => isFalse (by simp [h])
      | _, isFalse hs => isFalse (by simp [hs])
    else
      isFalse (by simp [hk])

end

instance : DecidableEq Json := decEq

/-- The value of the first member with the key, if the value is an object that has one. -/
def get? (key : String) : Json → Option Json
  | .object members => members.lookup key
  | _ => none

def string? : Json → Option String
  | .string value => some value
  | _ => none

def bool? : Json → Option Bool
  | .bool value => some value
  | _ => none

def list? : Json → Option (List Json)
  | .list items => some items
  | _ => none

def members? : Json → Option (List (String × Json))
  | .object members => some members
  | _ => none

def isObject (value : Json) : Bool :=
  value.members?.isSome

def isNull : Json → Bool
  | .null => true
  | _ => false

/-- Puts a member at the place of its key, unless the key is there already. -/
def addMember (key : String) (value : Json) : List (String × Json) → List (String × Json)
  | [] => [(key, value)]
  | (k, v) :: rest =>
    if key < k then (key, value) :: (k, v) :: rest
    else if key = k then (k, v) :: rest
    else (k, v) :: addMember key value rest

/-- Puts a member at the place of its key, and replaces one that is there already. -/
def setMember (key : String) (value : Json) : List (String × Json) → List (String × Json)
  | [] => [(key, value)]
  | (k, v) :: rest =>
    if key < k then (key, value) :: (k, v) :: rest
    else if key = k then (k, value) :: rest
    else (k, v) :: setMember key value rest

mutual

def normalize : Json → Json
  | .list items => .list (normalizeList items)
  | .object members => .object (normalizeMembers members)
  | other => other

def normalizeList : List Json → List Json
  | [] => []
  | item :: rest => normalize item :: normalizeList rest

def normalizeMembers : List (String × Json) → List (String × Json)
  | [] => []
  | (key, value) :: rest => addMember key (normalize value) (normalizeMembers rest)

end

/-- An object of the given members, in the order of their keys. -/
def ofMembers (members : List (String × Json)) : Json :=
  .object (members.foldl (fun sorted (key, value) => setMember key value sorted) [])

end Json

end Turnstile
