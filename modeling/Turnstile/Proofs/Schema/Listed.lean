import Turnstile.Proofs.Json.Order
import Turnstile.Proofs.Schema.Bare
import Turnstile.Proofs.Schema.Naming

/-!
This module contains the proof that listing the references of a schema and resolving the schema go through it in
the same way: nothing that resolving has to follow is missing in the list.
-/

namespace Turnstile

namespace Schema

theorem normalize_of_within (h : schema.normalize = schema) (hw : Within schema nested) :
    nested.normalize = nested := by
  induction hw with
  | refl => exact h
  | tail _ hb ih =>
    rcases hb with ⟨members, rfl, key, value, hm, _, _, hi⟩
    have hv := Json.normalize_of_mem_object ih _ hm
    cases hi with
    | named _ he => exact Json.normalize_of_mem_object hv _ he
    | item he => exact Json.normalize_of_mem_list hv _ he
    | schema => exact hv

/-- No object has two members of one name, so that what is mentioned is what resolving comes upon. -/
theorem Mentions.meets (hs : schema.normalize = schema) (h : Mentions schema reference) :
    Meets schema reference := by
  rcases h with ⟨members, hw, hr⟩
  have hn := (Json.sorted_of_normalize (normalize_of_within hs hw)).nodup
  exact ⟨_, hw, (Table.lookup_eq_some_iff_mem hn).mpr hr⟩

end Schema

namespace Definitions

open Schema

theorem normalize_body (h : schema.normalize = schema) : (body schema).normalize = body schema := by
  unfold body
  split
  . exact h
  . unfold strip
    split
    . next members =>
      have hs := Json.sorted_of_normalize h
      have hv := Json.normalize_of_mem_object h
      apply congrArg Json.object
      apply Json.normalizeMembers_of_sorted
      . exact List.Pairwise.sublist List.filter_sublist hs
      . intro entry he
        exact hv entry (List.mem_of_mem_filter he)
    . exact h

variable {defs : Definitions} {schema v : Json}

theorem body_of_definesNothing (h : DefinesNothing schema) : body schema = schema := by
  unfold body
  rw [if_pos ((embedded_isEmpty_iff_definesNothing schema).mpr h)]

theorem exists_fetched (hs : schema.normalize = schema) (h : defs.resolve schema = .ok v)
    (hr : Mentions (body schema) reference) : ∃ fetched, (defs.scope schema).fetch? reference = some fetched := by
  rcases hr.meets (normalize_body hs) with ⟨nested, hw, hg⟩
  cases hf : (defs.scope schema).fetch? reference with
  | some fetched => exact ⟨fetched, rfl⟩
  | none =>
    have hd : (defs.scope schema).Dangling (body schema) := ⟨nested, reference, .of_within hw, hg, hf⟩
    exact absurd hd ((resolve_eq_ok_iff defs schema v).mp h).not_dangling

theorem resolve_of_plain (h : Plain (body schema)) : defs.resolve schema = .ok (body schema) := by
  rw [resolve_eq_inline]
  exact inline_of_plain h

theorem plain_of_refs_eq_nil (hl : refs schema = [])
    (ht : ∀ reference, Mentions schema reference → reference.string?.isSome) : Plain schema := by
  intro reference h
  rcases Option.isSome_iff_exists.mp (ht reference h) with ⟨text, hr⟩
  rw [Json.string?_eq_some_iff] at hr
  rw [hr, ← mem_refs_iff, hl] at h
  cases h

theorem get?_resolve (h : defs.resolve schema = .ok v) (hr : (body schema).get? "$ref" = none)
    (hk : key ∈ dataKeywords) : v.get? key = (body schema).get? key := by
  rw [resolve_eq_inline] at h
  cases hb : body schema with
  | object members =>
    rw [hb] at h hr
    have hr : members.lookup "$ref" = none := hr
    unfold Schema.inline Schema.join at h
    rw [hr] at h
    rcases map_eq_ok h with ⟨expanded, he, rfl⟩
    exact lookup_of_inlineMembers he hk
  | _ =>
    rw [hb] at h
    cases h
    rfl

/--
Listing references and resolving go through a schema in the same way. If a schema resolves, every reference that
is listed for it leads to something; if none is listed, and none is there that is not a string, the schema
resolves to itself. What is data stays as it is in any case.
-/
theorem listed_resolved (defs : Definitions) (schema : Json) :
    (schema.normalize = schema → ∀ v, defs.resolve schema = .ok v → ∀ text ∈ refs (body schema),
      ∃ target fetched, Reference.ofText? text = some target ∧
        (defs.override (embedded schema)).find? target = some fetched)
    ∧ (refs (body schema) = [] → (∀ reference, Mentions (body schema) reference → reference.string?.isSome) →
        defs.resolve schema = .ok (body schema))
    ∧ (DefinesNothing schema → refs schema = [] →
        (∀ reference, Mentions schema reference → reference.string?.isSome) → defs.resolve schema = .ok schema)
    ∧ (Brings schema "$defs" ∨ Brings schema "definitions" → body schema = strip schema)
    ∧ (¬ (Brings schema "$defs" ∨ Brings schema "definitions") → body schema = schema)
    ∧ (∀ v, defs.resolve schema = .ok v → (body schema).get? "$ref" = none →
        ∀ key ∈ dataKeywords, v.get? key = (body schema).get? key)
    ∧ (∀ limit chain members expanded,
        inlineMembers ((defs.scope schema).expand limit chain) members = .ok expanded →
        ∀ key ∈ dataKeywords, expanded.lookup key = members.lookup key) := by
  refine ⟨?_, ?_, ?_, ?_, ?_, ?_, ?_⟩
  . intro hs v h text ht
    rcases exists_fetched hs h ((mem_refs_iff _ _).mp ht) with ⟨fetched, hf⟩
    rcases Option.bind_eq_some_iff.mp hf with ⟨target, hr, hd⟩
    exact ⟨target, fetched, hr, hd⟩
  . intro hl ht
    exact resolve_of_plain (plain_of_refs_eq_nil hl ht)
  . intro hn hl ht
    have hb := body_of_definesNothing hn
    have hp := plain_of_refs_eq_nil hl ht
    rw [← hb] at hp
    exact (resolve_of_plain hp).trans (by rw [hb])
  . intro h
    unfold body
    rw [if_neg]
    intro he
    exact (embedded_isEmpty_iff schema).mp he h
  . intro h
    unfold body
    rw [if_pos ((embedded_isEmpty_iff schema).mpr h)]
  . intro v h hr key hk
    exact get?_resolve h hr hk
  . intro limit chain members expanded h key hk
    exact lookup_of_inlineMembers h hk

namespace Sample

/-- Two references, one of them to a definition of the schema itself, and two that are none. -/
def order : Json :=
  .object [("$defs", .object [("amount", .object [("type", "number")])]),
    ("const", .object [("$ref", "amount")]),
    ("properties", .object [("$ref", .object [("type", "string")]), ("call", .object [("$ref", "tool-call")]),
      ("sum", .object [("$ref", "#/$defs/amount")])])]

/-- What is left of it when the references are taken away. -/
def receipt : Json :=
  .object [("const", .object [("$ref", "amount")]),
    ("properties", .object [("$ref", .object [("type", "string")])])]

end Sample

theorem listed_resolved_order :
    Sample.order.normalize = Sample.order
    ∧ (∃ v, builtin.resolve Sample.order = .ok v)
    ∧ refs (body Sample.order) = ["tool-call", "#/$defs/amount"]
    ∧ (∃ target fetched, Reference.ofText? "#/$defs/amount" = some target ∧
      (builtin.override (embedded Sample.order)).find? target = some fetched)
    ∧ refs Sample.receipt = []
    ∧ builtin.resolve Sample.receipt = .ok Sample.receipt := by
  have hs : Sample.order.normalize = Sample.order := by rfl
  have hv : ∃ v, builtin.resolve Sample.order = .ok v := ⟨_, by rfl⟩
  have hl : refs (body Sample.order) = ["tool-call", "#/$defs/amount"] := by rfl
  have hn : refs (body Sample.receipt) = [] := by rfl
  refine ⟨hs, hv, hl, ?_, hn, ?_⟩
  . rcases hv with ⟨v, hv⟩
    exact (listed_resolved builtin Sample.order).1 hs v hv _ (by simp [hl])
  . have hp : Plain Sample.receipt := plain_of_isBare (by decide)
    apply (listed_resolved builtin Sample.receipt).2.1 hn
    intro reference h
    exact absurd h (hp reference)

end Definitions

end Turnstile
