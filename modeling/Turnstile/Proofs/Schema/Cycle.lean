import Mathlib.Data.List.Chain
import Turnstile.Proofs.Schema.Mention
import Turnstile.Proofs.Schema.Resolution

/-!
This module contains the proof that a cycle that resolving reports is a cycle of the definitions: each entry of the
reported chain is a reference that stands in what the entry before it leads to.
-/

namespace Turnstile

namespace Schema

/-- A reference that is listed for the schema has the given target. -/
def RefersTo (schema : Json) (target : Reference) : Prop :=
  ∃ text ∈ refs schema, Reference.ofText? text = some target

end Schema

namespace Definitions

open Schema

/-- The targets are followed one after the other, from the schema to the value. -/
inductive Path (defs : Definitions) (schema : Json) : List Reference → Json → Prop where
  | start : Path defs schema [] schema
  | follow :
    Path defs schema targets value → RefersTo value target → defs.find? target = some fetched →
      Path defs schema (targets ++ [target]) fetched

variable {defs : Definitions} {schema value : Json} {target : Reference} {limit : Nat} {chain pool : List String}

theorem refersTo_of_meets {text : String} (h : Meets value (.string text))
    (ht : Reference.ofText? text = some target) : RefersTo value target :=
  ⟨text, (mem_refs_iff value text).mpr h.mentions, ht⟩

/-- Each target is in what the one before it leads to, and so is the one that comes next. -/
theorem Path.isChain (h : Path defs schema targets value) (hn : RefersTo value target) :
    (targets ++ [target]).IsChain fun first second =>
      ∃ fetched, defs.find? first = some fetched ∧ RefersTo fetched second := by
  induction h generalizing target with
  | start => exact .singleton _
  | follow _ hr hf ih =>
    apply List.IsChain.append (ih hr) (.singleton _)
    intro first hfirst second hsecond
    simp only [List.getLast?_append, List.getLast?_singleton, Option.mem_def, Option.some_or, Option.some.injEq,
      List.head?_cons] at hfirst hsecond
    subst hfirst
    subst hsecond
    exact ⟨_, hf, hn⟩

theorem Path.head (h : Path defs schema targets value) (hn : RefersTo value target) :
    ∃ first, (targets ++ [target]).head? = some first ∧ RefersTo schema first := by
  induction h generalizing target with
  | start => exact ⟨target, rfl, hn⟩
  | follow _ hr _ ih =>
    rcases ih hr with ⟨first, hf, hs⟩
    refine ⟨first, ?_, hs⟩
    rw [List.head?_append, hf]
    rfl

/-- What is reported as a cycle when a reference is followed comes up at once, or further inside. -/
theorem expand_eq_cyclicRef
    (h : defs.expand (limit + 1) chain reference = .error (.cyclicRef reported)) :
    ∃ text target, reference = .string text ∧ Reference.ofText? text = some target ∧
      ((target.canonical ∈ chain ∧ reported = chain ++ [target.canonical]) ∨
        target.canonical ∉ chain ∧ ∃ fetched, defs.find? target = some fetched ∧
          Schema.inline (defs.expand limit (chain ++ [target.canonical])) fetched =
            .error (.cyclicRef reported)) := by
  unfold expand at h
  split at h
  . next text =>
    split at h
    . cases h
    . next target ht =>
      refine ⟨text, target, rfl, ht, ?_⟩
      split at h
      . next hc =>
        cases h
        exact .inl ⟨by simpa using hc, rfl⟩
      . next hc =>
        refine .inr ⟨by simpa using hc, ?_⟩
        split at h
        . cases h
        . next hl => cases hl
        . next fetched _ hf hl =>
          cases hl
          exact ⟨fetched, hf, h⟩
  . cases h

/-- The targets of a path to a value in which the cycle is closed. -/
structure Closes (defs : Definitions) (schema : Json) (targets : List Reference) (target : Reference) : Prop where
  path : ∃ value, Path defs schema targets value ∧ RefersTo value target
  nodup : (targets.map Reference.canonical).Nodup
  mem : target.canonical ∈ targets.map Reference.canonical

theorem exists_closes_of_expand (hp : Path defs schema targets value)
    (hroom : Room defs pool limit (targets.map Reference.canonical)) (hk : Known pool reference)
    (hw : Within value nested) (hr : nested.get? "$ref" = some reference)
    (h : defs.expand limit (targets.map Reference.canonical) reference = .error (.cyclicRef reported)) :
    ∃ before last, Closes defs schema before last ∧ reported = (before ++ [last]).map Reference.canonical := by
  induction limit generalizing targets value nested reference with
  | zero => exact absurd hroom.limit_pos (by simp)
  | succ limit ih =>
    rcases expand_eq_cyclicRef h with ⟨text, target, rfl, ht, hcases⟩
    have hrefers : RefersTo value target := refersTo_of_meets ⟨nested, hw, hr⟩ ht
    rcases hcases with ⟨hc, he⟩ | ⟨hc, fetched, hf, he⟩
    . refine ⟨targets, target, ⟨⟨value, hp, hrefers⟩, hroom.nodup, hc⟩, ?_⟩
      rw [he, List.map_append]
      rfl
    . have hfetch : defs.fetch? (.string text) = some fetched := (fetch?_eq_find? ht).trans hf
      have hmap : targets.map Reference.canonical ++ [target.canonical] =
          (targets ++ [target]).map Reference.canonical := by rw [List.map_append, List.map_singleton]
      have hpush := hroom.push hc (hk _ (spelling?_of_ofText? ht))
      rw [hmap] at he hpush
      -- The path has grown by the target whose spelling the chain has grown by.
      rcases inline_eq_error he with ⟨inner, next, hi, hn, he⟩
      exact ih (hp.follow hrefers hf) hpush (known_of_fetched hroom.all hfetch hi hn) hi hn he

theorem exists_closes (h : defs.resolve schema = .error (.cyclicRef chain)) :
    ∃ targets target, Closes (defs.scope schema) (body schema) targets target ∧
      chain = (targets ++ [target]).map Reference.canonical := by
  rw [resolve_eq_inline] at h
  rcases inline_eq_error h with ⟨nested, reference, hw, hr, he⟩
  exact exists_closes_of_expand .start (room_pool _ reference (Nat.lt_succ_self _)) (known_pool _ reference) hw hr he

/--
A cycle that resolving reports is one. Its last entry is the only one that repeats another, and its entries are
references that lead from the schema on, each of them standing in what the one before it leads to.
-/
theorem cycle_reported (h : defs.resolve schema = .error (.cyclicRef chain)) :
    2 ≤ chain.length
    ∧ (∃ before last, chain = before ++ [last] ∧ before.Nodup ∧ before.count last = 1)
    ∧ ∃ targets : List Reference, chain = targets.map Reference.canonical
      ∧ (∃ first, targets.head? = some first ∧ RefersTo (body schema) first)
      ∧ targets.IsChain fun target next =>
          ∃ fetched, (defs.override (embedded schema)).find? target = some fetched ∧ RefersTo fetched next := by
  rcases exists_closes h with ⟨targets, target, ⟨⟨value, hp, hr⟩, hn, hm⟩, rfl⟩
  refine ⟨?_, ⟨targets.map Reference.canonical, target.canonical, by simp, hn, List.count_eq_one_of_mem hn hm⟩,
    targets ++ [target], rfl, hp.head hr, hp.isChain hr⟩
  have hpos := List.length_pos_of_mem hm
  simp only [List.length_map] at hpos
  simp only [List.length_map, List.length_append, List.length_singleton]
  omega

namespace Sample

/-- Trees have branches, and branches are lists of trees. -/
def trees : Definitions :=
  .ofList [("tree", .object [("properties", .object [("branches", .object [("$ref", "#/$defs/branches")])])]),
    ("branches", .object [("items", .object [("$ref", "tree")]), ("type", "array")])]

/-- The definition of the schema itself makes no difference to the cycle. -/
def forest : Json :=
  .object [("$defs", .object [("age", .object [("type", "integer")])]),
    ("items", .object [("$ref", "#/definitions/tree")]), ("not", .object [("$ref", "age")])]

end Sample

theorem cycle_reported_trees :
    Sample.trees.resolve Sample.forest =
      .error (.cyclicRef ["#/$defs/tree", "#/$defs/branches", "#/$defs/tree"])
    ∧ ∃ targets : List Reference,
        ["#/$defs/tree", "#/$defs/branches", "#/$defs/tree"] = targets.map Reference.canonical
        ∧ (∃ first, targets.head? = some first ∧ RefersTo (body Sample.forest) first)
        ∧ targets.IsChain fun target next => ∃ fetched,
            (Sample.trees.override (embedded Sample.forest)).find? target = some fetched ∧
              RefersTo fetched next := by
  have h : Sample.trees.resolve Sample.forest =
      .error (.cyclicRef ["#/$defs/tree", "#/$defs/branches", "#/$defs/tree"]) := by rfl
  exact ⟨h, (cycle_reported h).2.2⟩

end Definitions

end Turnstile
