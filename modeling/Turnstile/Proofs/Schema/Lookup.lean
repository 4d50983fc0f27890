import Turnstile.Proofs.Schema.Resolution

/-!
This module contains what resolving a schema depends on, which is the definitions that it looks up: definitions
that give the same for each of their names resolve the schema in the same way.
-/

namespace Turnstile

namespace Definitions

open Schema

/-- The names that are looked up to resolve a schema, in the given definitions or in its own. -/
def lookedUp (defs : Definitions) (schema : Json) : List String :=
  let scope := defs.scope schema
  (asked (scope.expand (scope.depthLimit + 1) []) (body schema)).flatMap (scope.lookups (scope.depthLimit + 1) [])

/-- The name is looked up, and it is not the schema itself that defines it. -/
def Needs (defs : Definitions) (schema : Json) (name : String) : Prop :=
  name ∈ defs.lookedUp schema ∧ (embedded schema).get? name = none

/-- The name is that of a reference to which one gets from the schema. -/
def ReachesName (defs : Definitions) (schema : Json) (name : String) : Prop :=
  ∃ nested text target, defs.Reaches schema nested ∧ nested.get? "$ref" = some (.string text) ∧
    Reference.ofText? text = some target ∧ target.name = name

variable {defs other : Definitions} {chain : List String}

theorem resolve_eq_of_needs (h : ∀ name, defs.Needs schema name → other.get? name = defs.get? name) :
    other.resolve schema = defs.resolve schema := by
  have hscope : ∀ name ∈ defs.lookedUp schema,
      (other.scope schema).get? name = (defs.scope schema).get? name := by
    intro name hm
    unfold scope
    rw [get?_override, get?_override]
    cases hl : (embedded schema).get? name with
    | some definition => rfl
    | none => rw [h name ⟨hm, hl⟩]
  -- A limit that is enough for the one and for the other changes neither result.
  let bound := max ((defs.scope schema).depthLimit + 1) ((other.scope schema).depthLimit + 1)
  rw [resolve_eq_inline, resolve_eq_inline,
    inline_expand_limit (Nat.lt_succ_self _) (Nat.lt_of_succ_le (Nat.le_max_right _ _) : _ < bound)]
  apply inline_eq_of_asked
  intro reference hr
  apply expand_eq_of_lookups (room_pool _ reference (Nat.lt_succ_self _)) (Nat.le_max_left _ _) (known_pool _ _)
  intro name hm
  exact hscope name (List.mem_flatMap.mpr ⟨reference, hr, hm⟩)

theorem mem_lookups (h : name ∈ defs.lookups limit chain reference) :
    ∃ text target, reference = .string text ∧ Reference.ofText? text = some target ∧
      (name = target.name ∨ ∃ fetched fewer, limit = fewer + 1 ∧ defs.find? target = some fetched ∧
        ∃ next ∈ asked (defs.expand fewer (chain ++ [target.canonical])) fetched,
          name ∈ defs.lookups fewer (chain ++ [target.canonical]) next) := by
  unfold lookups at h
  split at h
  . next text =>
    split at h
    . cases h
    . next target ht =>
      refine ⟨text, target, rfl, ht, ?_⟩
      split at h
      . cases h
      . rcases List.mem_cons.mp h with h | h
        . exact .inl h
        . split at h
          . next fetched fewer hf _ =>
            exact .inr ⟨fetched, fewer, rfl, hf, List.mem_flatMap.mp h⟩
          . cases h
  . cases h

theorem reachesName_of_mem_lookups (hr : schema.get? "$ref" = some reference)
    (h : name ∈ defs.lookups limit chain reference) : defs.ReachesName schema name := by
  induction limit generalizing chain schema reference with
  | zero =>
    rcases mem_lookups h with ⟨text, target, rfl, ht, rfl | ⟨_, _, hl, _⟩⟩
    . exact ⟨schema, text, target, .refl, hr, ht, rfl⟩
    . cases hl
  | succ limit ih =>
    rcases mem_lookups h with ⟨text, target, rfl, ht, rfl | ⟨fetched, _, hl, hf, next, hn, hm⟩⟩
    . exact ⟨schema, text, target, .refl, hr, ht, rfl⟩
    . cases hl
      rcases meets_of_mem_asked hn with ⟨nested, hw, hn⟩
      have hreach : defs.Reaches schema nested :=
        .head (.inr ⟨_, hr, (fetch?_eq_find? ht).trans hf⟩) (Reaches.of_within hw)
      rcases ih hn hm with ⟨last, text, target, hl, hlast⟩
      exact ⟨last, text, target, hreach.trans hl, hlast⟩

theorem reachesName_of_mem_lookedUp (h : name ∈ defs.lookedUp schema) :
    (defs.scope schema).ReachesName (body schema) name := by
  rcases List.mem_flatMap.mp h with ⟨reference, hr, hm⟩
  rcases meets_of_mem_asked hr with ⟨nested, hw, hn⟩
  rcases reachesName_of_mem_lookups hn hm with ⟨last, text, target, hl, hlast⟩
  exact ⟨last, text, target, (Reaches.of_within hw).trans hl, hlast⟩

/--
Resolving depends on nothing but the definitions that it looks up, which are among those that the schema reaches.
Definitions that are not looked up or that the schema defines itself can be added, replaced, taken away and put
into another order.
-/
theorem resolve_determined (defs : Definitions) (schema : Json) :
    (∀ other : Definitions,
        (∀ name ∈ defs.lookedUp schema, (embedded schema).get? name = none → other.get? name = defs.get? name) →
          other.resolve schema = defs.resolve schema)
    ∧ (∀ name ∈ defs.lookedUp schema, (defs.scope schema).ReachesName (body schema) name)
    ∧ (∀ locals : Definitions, (∀ name, defs.Needs schema name → locals.get? name = none) →
        (defs.override locals).resolve schema = defs.resolve schema)
    ∧ (∀ name, ¬ defs.Needs schema name →
        (∀ value, resolve (defs.insert name value) schema = defs.resolve schema) ∧
          resolve (defs.erase name) schema = defs.resolve schema)
    ∧ (∀ other : Definitions, other.entries.Perm defs.entries → other.resolve schema = defs.resolve schema) := by
  refine ⟨?_, fun name => reachesName_of_mem_lookedUp, ?_, ?_, ?_⟩
  . intro other h
    apply resolve_eq_of_needs
    intro name hn
    exact h name hn.1 hn.2
  . intro locals h
    apply resolve_eq_of_needs
    intro name hn
    rw [get?_override, h name hn, Option.none_or]
  . intro name h
    have hne : ∀ needed, defs.Needs schema needed → needed ≠ name := by
      rintro _ hn rfl
      exact h hn
    constructor
    . intro value
      apply resolve_eq_of_needs
      intro needed hn
      rw [Table.get?_insert, if_neg (hne needed hn)]
    . apply resolve_eq_of_needs
      intro needed hn
      exact Table.get?_erase_of_ne (hne needed hn)
  . intro other h
    apply resolve_eq_of_needs
    intro name _
    exact Table.get?_of_perm h name

/-- What comes after a reference that leads nowhere is not looked up any more. -/
example : lookedUp (.ofList [("name", text)])
    (.object [("anyOf", .list [.object [("$ref", "name")], .object [("$ref", "nick")], .object [("$ref", "text")]])]) =
      ["name", "nick"] := by rfl

namespace Sample

def prices : Definitions :=
  .ofList [("amount", .object [("type", "integer")]), ("price", .object [("$ref", "amount")]), ("name", text)]

/-- Other definitions, in another order, which have the same price. -/
def others : Definitions :=
  .ofList [("note", true), ("price", .object [("$ref", "amount")]), ("amount", text)]

/-- The amount is defined by the schema itself. -/
def item : Json :=
  .object [("$defs", .object [("amount", .object [("type", "number")])]),
    ("properties", .object [("price", .object [("$ref", "#/$defs/price")])])]

end Sample

theorem resolve_determined_prices :
    Sample.prices.lookedUp Sample.item = ["price", "amount"]
    ∧ (∀ name ∈ Sample.prices.lookedUp Sample.item, (embedded Sample.item).get? name = none →
        Sample.others.get? name = Sample.prices.get? name)
    ∧ Sample.others.resolve Sample.item = Sample.prices.resolve Sample.item
    ∧ Sample.prices.resolve Sample.item =
        .ok (.object [("properties", .object [("price", .object [("type", "number")])])]) := by
  have hl : Sample.prices.lookedUp Sample.item = ["price", "amount"] := by rfl
  have h : ∀ name ∈ Sample.prices.lookedUp Sample.item, (embedded Sample.item).get? name = none →
      Sample.others.get? name = Sample.prices.get? name := by
    rw [hl]
    decide
  exact ⟨hl, h, (resolve_determined Sample.prices Sample.item).1 Sample.others h, by rfl⟩

end Definitions

end Turnstile
