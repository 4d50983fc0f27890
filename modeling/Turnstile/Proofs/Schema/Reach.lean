import Mathlib.Logic.Relation
import Turnstile.Proofs.Result
import Turnstile.Schema.Definitions

/-!
This module contains the way through a schema: which schemas stand inside of it, where its references
lead, and what keeps a schema from ever getting rid of its references.
-/

namespace Turnstile

namespace Schema

/-- The schemas in the value of a keyword that is not data. -/
inductive Holds (key : String) : Json → Json → Prop where
  | named : key ∈ mapKeywords → (name, schema) ∈ entries → Holds key (.object entries) schema
  | item : schema ∈ items → Holds key (.list items) schema
  | schema : value.list? = none → (value.isObject → key ∉ mapKeywords) → Holds key value value

def Among (members : List (String × Json)) (schema : Json) : Prop :=
  ∃ key value, (key, value) ∈ members ∧ key ≠ "$ref" ∧ key ∉ dataKeywords ∧ Holds key value schema

/-- The second schema stands directly inside the first one. -/
def Below (outer nested : Json) : Prop :=
  ∃ members, outer = .object members ∧ Among members nested

abbrev Within : Json → Json → Prop := Relation.ReflTransGen Below

theorem Among.tail (h : Among rest schema) : Among (member :: rest) schema := by
  rcases h with ⟨key, value, hm, h⟩
  exact ⟨key, value, .tail _ hm, h⟩

theorem Among.below (h : Among members schema) : Below (.object members) schema :=
  ⟨members, rfl, h⟩

/-- At one of its places, the schema is an object whose reference is the given one. -/
def Meets (schema reference : Json) : Prop :=
  ∃ nested, Within schema nested ∧ nested.get? "$ref" = some reference

theorem Meets.of_within (hw : Within schema nested) (h : Meets nested reference) : Meets schema reference := by
  rcases h with ⟨last, hl, hr⟩
  exact ⟨last, hw.trans hl, hr⟩

end Schema

namespace Definitions

def fetch? (defs : Definitions) (reference : Json) : Option Json := do
  let text ← reference.string?
  let target ← Reference.ofText? text
  defs.find? target

/-- One step inwards, or along a reference. -/
def Step (defs : Definitions) (schema next : Json) : Prop :=
  Schema.Below schema next ∨ ∃ reference, schema.get? "$ref" = some reference ∧
    defs.fetch? reference = some next

abbrev Reaches (defs : Definitions) : Json → Json → Prop := Relation.ReflTransGen defs.Step

/-- From the schema one gets to a schema that leads back to itself. -/
def Cyclic (defs : Definitions) (schema : Json) : Prop :=
  ∃ nested, defs.Reaches schema nested ∧ Relation.TransGen defs.Step nested nested

/-- From the schema one gets to a reference that leads nowhere. -/
def Dangling (defs : Definitions) (schema : Json) : Prop :=
  ∃ nested reference, defs.Reaches schema nested ∧ nested.get? "$ref" = some reference ∧
    defs.fetch? reference = none

theorem isObject_of_get? {schema : Json} (h : schema.get? key = some value) : schema.isObject = true := by
  unfold Json.get? at h
  split at h
  . rfl
  . cases h

theorem Step.isObject {defs : Definitions} (h : defs.Step schema next) : schema.isObject = true := by
  rcases h with ⟨_, hm, _⟩ | ⟨_, hr, _⟩
  . subst hm
    rfl
  . exact isObject_of_get? hr

theorem Reaches.of_within {defs : Definitions} (h : Schema.Within schema nested) :
    defs.Reaches schema nested := by
  induction h with
  | refl => exact .refl
  | tail _ hb ih => exact ih.tail (.inl hb)

theorem Cyclic.of_reaches {defs : Definitions} (hr : defs.Reaches schema nested) (h : defs.Cyclic nested) :
    defs.Cyclic schema := by
  rcases h with ⟨last, hl, h⟩
  exact ⟨last, hr.trans hl, h⟩

theorem Dangling.of_reaches {defs : Definitions} (hr : defs.Reaches schema nested)
    (h : defs.Dangling nested) : defs.Dangling schema := by
  rcases h with ⟨last, reference, hl, h⟩
  exact ⟨last, reference, hr.trans hl, h⟩

end Definitions

namespace Schema

variable {expand : Json → Except SchemaError Json}

def FailsIn (expand : Json → Except SchemaError Json) (e : SchemaError) (schema : Json) : Prop :=
  ∃ nested reference, Within schema nested ∧ nested.get? "$ref" = some reference ∧
    expand reference = .error e

theorem FailsIn.of_below (hb : Below schema nested) (h : FailsIn expand e nested) :
    FailsIn expand e schema := by
  rcases h with ⟨last, reference, hl, h⟩
  exact ⟨last, reference, .head hb hl, h⟩

theorem join_eq_error (h : join expand members siblings = .error e) :
    FailsIn expand e (.object members) ∨ siblings = .error e := by
  unfold join at h
  split at h
  . exact .inr (map_eq_error h)
  . next reference hr =>
    rcases bind_eq_error h with he | ⟨target, _, h⟩
    . exact .inl ⟨_, reference, .refl, hr, he⟩
    . rcases bind_eq_error h with he | ⟨expanded, _, h⟩
      . exact .inr he
      . split at h <;> cases h

mutual

theorem inline_eq_error (h : inline expand schema = .error e) : FailsIn expand e schema := by
  match schema with
  | .object members =>
    rcases join_eq_error h with hf | hm
    . exact hf
    . rcases inlineMembers_eq_error hm with ⟨nested, ha, hf⟩
      exact hf.of_below ha.below
  | .null | .bool _ | .number _ | .string _ | .list _ => cases h

theorem inlineMembers_eq_error (h : inlineMembers expand members = .error e) :
    ∃ nested, Among members nested ∧ FailsIn expand e nested := by
  match members with
  | [] => cases h
  | (key, value) :: rest =>
    unfold inlineMembers at h
    split at h
    . rcases inlineMembers_eq_error h with ⟨nested, ha, hf⟩
      exact ⟨nested, ha.tail, hf⟩
    . next hk =>
      rcases bind_eq_error h with hv | ⟨inlined, _, h⟩
      . rcases inlineValue_eq_error hv with ⟨hd, nested, hi, hf⟩
        exact ⟨nested, ⟨key, value, .head _, hk, hd, hi⟩, hf⟩
      . rcases bind_eq_error h with hr | ⟨expanded, _, h⟩
        . rcases inlineMembers_eq_error hr with ⟨nested, ha, hf⟩
          exact ⟨nested, ha.tail, hf⟩
        . cases h

theorem inlineValue_eq_error (h : inlineValue expand key value = .error e) :
    key ∉ dataKeywords ∧ ∃ nested, Holds key value nested ∧ FailsIn expand e nested := by
  match value with
  | .object entries =>
    unfold inlineValue at h
    split at h
    . cases h
    . next hd =>
      refine ⟨by simpa using hd, ?_⟩
      split at h
      . next hm =>
        rcases inlineEntries_eq_error (map_eq_error h) with ⟨name, schema, hs, hf⟩
        exact ⟨schema, .named (by simpa using hm) hs, hf⟩
      . next hm =>
        refine ⟨_, .schema rfl (fun _ => by simpa using hm), ?_⟩
        rcases join_eq_error h with hf | hr
        . exact hf
        . rcases inlineMembers_eq_error hr with ⟨nested, ha, hf⟩
          exact hf.of_below ha.below
  | .list items =>
    unfold inlineValue at h
    split at h
    . cases h
    . next hd =>
      rcases inlineItems_eq_error (map_eq_error h) with ⟨schema, hs, hf⟩
      exact ⟨by simpa using hd, schema, .item hs, hf⟩
  | .null | .bool _ | .number _ | .string _ => cases h

theorem inlineEntries_eq_error (h : inlineEntries expand entries = .error e) :
    ∃ name schema, (name, schema) ∈ entries ∧ FailsIn expand e schema := by
  match entries with
  | [] => cases h
  | (name, schema) :: rest =>
    rcases bind_eq_error h with hs | ⟨inlined, _, h⟩
    . exact ⟨name, schema, .head _, inline_eq_error hs⟩
    . rcases bind_eq_error h with hr | ⟨expanded, _, h⟩
      . rcases inlineEntries_eq_error hr with ⟨name, schema, hs, hf⟩
        exact ⟨name, schema, .tail _ hs, hf⟩
      . cases h

theorem inlineItems_eq_error (h : inlineItems expand items = .error e) :
    ∃ schema ∈ items, FailsIn expand e schema := by
  match items with
  | [] => cases h
  | schema :: rest =>
    rcases bind_eq_error h with hs | ⟨inlined, _, h⟩
    . exact ⟨schema, .head _, inline_eq_error hs⟩
    . rcases bind_eq_error h with hr | ⟨expanded, _, h⟩
      . rcases inlineItems_eq_error hr with ⟨schema, hs, hf⟩
        exact ⟨schema, .tail _ hs, hf⟩
      . cases h

end

end Schema

end Turnstile
