import Turnstile.Proofs.Schema.Limit
import Turnstile.Proofs.Table

/-!
This module contains the specification of resolving: it gives the full expansion of a schema in the
scope of its own definitions, and an error exactly if there is none.
-/

namespace Turnstile

namespace Definitions

/-- What a schema defines itself under a keyword; where it repeats a name, the last definition counts. -/
def local? (schema : Json) (keyword name : String) : Option Json := do
  let members ← (schema.get? keyword).bind Json.members?
  members.reverse.lookup name

def Brings (schema : Json) (keyword : String) : Prop :=
  ∃ entries, schema.get? keyword = some (.object entries) ∧ entries ≠ []

/-- The definitions that a schema sees. -/
def scope (defs : Definitions) (schema : Json) : Definitions :=
  defs.override (embedded schema)

/-- What is left to be resolved when the definitions of a schema are in its scope. -/
def body (schema : Json) : Json :=
  if (embedded schema).isEmpty then schema else strip schema

theorem get?_override (defs locals : Definitions) (name : String) :
    (defs.override locals).get? name = (locals.get? name).or (defs.get? name) := by
  unfold override
  rw [Table.get?_insertAll, Table.lookup_reverse]

theorem get?_embedded (schema : Json) (name : String) :
    (embedded schema).get? name =
      (local? schema "definitions" name).or (local? schema "$defs" name) := by
  have hl : ∀ keyword, local? schema keyword name =
      (((schema.get? keyword).bind Json.members?).getD []).reverse.lookup name := by
    intro keyword
    unfold local?
    cases (schema.get? keyword).bind Json.members? <;> rfl
  unfold embedded Table.ofList
  rw [Table.get?_insertAll, hl, hl]
  simp only [keywords, List.flatMap_cons, List.flatMap_nil, List.append_nil, List.reverse_append,
    List.lookup_append]
  apply Option.or_none

theorem embedded_isEmpty_iff (schema : Json) :
    (embedded schema).isEmpty ↔ ¬ (Brings schema "$defs" ∨ Brings schema "definitions") := by
  have hb : ∀ keyword, Brings schema keyword ↔
      ((schema.get? keyword).bind Json.members?).getD [] ≠ [] := by
    intro keyword
    unfold Brings
    cases schema.get? keyword with
    | none => simp
    | some value => cases value <;> simp [Json.members?]
  unfold embedded
  rw [Table.isEmpty_ofList_iff, hb, hb]
  simp [keywords]

theorem resolve_eq_inline (defs : Definitions) (schema : Json) :
    defs.resolve schema =
      Schema.inline ((defs.scope schema).expand ((defs.scope schema).depthLimit + 1) []) (body schema) := by
  unfold resolve body
  split
  . next h =>
    -- A schema without definitions of its own sees the given ones.
    have hs : defs.scope schema = defs := by
      simp only [Table.isEmpty, List.isEmpty_iff] at h
      simp [scope, override, h, Table.insertAll]
    rw [hs]
  . rfl

theorem resolve_eq_ok_iff (defs : Definitions) (schema v : Json) :
    defs.resolve schema = .ok v ↔ (defs.scope schema).Expands (body schema) v := by
  rw [resolve_eq_inline]
  constructor
  . intro h
    exact Schema.inline_sound (expand_sound _ _ _) h
  . intro h
    -- An error would mean a cycle or a dangling reference, and an expansion rules out both.
    cases hr : Schema.inline ((defs.scope schema).expand ((defs.scope schema).depthLimit + 1) [])
        (body schema) with
    | ok w =>
      have hw := Schema.inline_sound (expand_sound _ _ _) hr
      rw [hw.unique h]
    | error e =>
      rcases inline_expand_eq_error (Nat.lt_succ_self _) hr with hc | hd
      . exact absurd hc h.not_cyclic
      . exact absurd hd h.not_dangling

theorem resolve_eq_error_iff (defs : Definitions) (schema : Json) :
    (∃ e, defs.resolve schema = .error e) ↔
      (defs.scope schema).Cyclic (body schema) ∨ (defs.scope schema).Dangling (body schema) := by
  constructor
  . intro h
    rcases h with ⟨e, he⟩
    rw [resolve_eq_inline] at he
    exact inline_expand_eq_error (Nat.lt_succ_self _) he
  . intro h
    cases hr : defs.resolve schema with
    | error e => exact ⟨e, rfl⟩
    | ok v =>
      have hv := (resolve_eq_ok_iff defs schema v).mp hr
      rcases h with hc | hd
      . exact absurd hc hv.not_cyclic
      . exact absurd hd hv.not_dangling

/--
Resolving is the full expansion of a schema in the scope of its own definitions, which are taken off its top. A
reference fetches the part of a definition that its pointer leads to. The limit on chains plays no part in it, and an
error means a cycle or a reference that leads nowhere.
-/
theorem resolve_iff_expands (defs : Definitions) (schema : Json) :
    (∀ name, (defs.scope schema).get? name =
      ((local? schema "definitions" name).or (local? schema "$defs" name)).or (defs.get? name)) ∧
    (Brings schema "$defs" ∨ Brings schema "definitions" → body schema = strip schema) ∧
    (¬ (Brings schema "$defs" ∨ Brings schema "definitions") → body schema = schema) ∧
    (∀ members, strip (.object members) =
      .object (members.filter fun (key, _) => key ≠ "$defs" ∧ key ≠ "definitions")) ∧
    (∀ reference fetched, (defs.scope schema).fetch? reference = some fetched ↔
      ∃ text target definition, reference = .string text ∧ ¬ Reference.Remote text.toList ∧
        Reference.Spells text.toList target ∧ (defs.scope schema).get? target.name = some definition ∧
        definition.Leads target.pointer.toList fetched) ∧
    (∀ limit, (defs.scope schema).depthLimit < limit →
      Schema.inline ((defs.scope schema).expand limit []) (body schema) = defs.resolve schema) ∧
    (∀ v, defs.resolve schema = .ok v ↔ (defs.scope schema).Expands (body schema) v) ∧
    ((∃ e, defs.resolve schema = .error e) ↔ ¬ ∃ v, (defs.scope schema).Expands (body schema) v) ∧
    ((∃ e, defs.resolve schema = .error e) ↔
      (defs.scope schema).Cyclic (body schema) ∨ (defs.scope schema).Dangling (body schema)) := by
  refine ⟨?_, ?_, ?_, strip_object, fun _ _ => fetch?_eq_some_iff, ?_, resolve_eq_ok_iff defs schema, ?_,
    resolve_eq_error_iff defs schema⟩
  . intro name
    unfold scope
    rw [get?_override, get?_embedded]
  . intro h
    unfold body
    rw [if_neg]
    intro he
    exact (embedded_isEmpty_iff schema).mp he h
  . intro h
    unfold body
    rw [if_pos ((embedded_isEmpty_iff schema).mpr h)]
  . intro limit hl
    rw [resolve_eq_inline]
    exact inline_expand_limit hl (Nat.lt_succ_self _) _
  . simp only [← resolve_eq_ok_iff]
    cases defs.resolve schema <;> simp

end Definitions

end Turnstile
