import Turnstile.Proofs.Schema.Place
import Turnstile.Proofs.Schema.Reach
import Turnstile.Schema.Validation

/-!
This module contains the proof that the place at which a document stands has no say in whether it is
valid: what a schema is read into finds fault with a document at one place exactly if it does so at
every other one.
-/

namespace Turnstile

namespace Schema

def Part.Uniform : Part → Prop
  | .plain => True
  | .one schema => ∀ s, schema = .ok s → s.check.Uniform
  | .many schemas => ∀ list, schemas = .ok list → ∀ s ∈ list, s.check.Uniform
  | .named schemas => ∀ entries, schemas = .ok entries → ∀ entry ∈ entries, entry.2.check.Uniform

namespace Members

structure Uniform (m : Members) : Prop where
  parts : ∀ entry ∈ m.parts, entry.2.Uniform
  refer : ∀ reference s, m.refer reference = .ok s → s.check.Uniform

variable {m : Members}

theorem Uniform.of_lookup (h : m.Uniform) (hp : m.parts.lookup key = some part) : part.Uniform := by
  rcases List.lookup_eq_some_iff.mp hp with ⟨before, behind, he, _⟩
  exact h.parts (key, part) (by simp [he])

theorem Uniform.one (h : m.Uniform) (hs : m.one key = .ok s) : s.check.Uniform := by
  unfold Members.one at hs
  split at hs
  . next hp => exact h.of_lookup hp s hs
  . cases hs

theorem Uniform.many (h : m.Uniform) (hs : m.many key = .ok schemas) :
    ∀ c ∈ schemas.map Subschema.check, c.Uniform := by
  unfold Members.many at hs
  split at hs
  . next hp =>
    intro c hc
    rcases List.mem_map.mp hc with ⟨s, hm, he⟩
    subst he
    exact h.of_lookup hp schemas hs s hm
  . cases hs

theorem Uniform.named (h : m.Uniform) (hs : m.named key = .ok schemas) :
    ∀ entry ∈ schemas, entry.2.check.Uniform := by
  unfold Members.named at hs
  split at hs
  . next hp => exact h.of_lookup hp schemas hs
  . cases hs
  . cases hs
    simp

theorem Uniform.checkers (h : m.Uniform) (hs : m.named key = .ok schemas) :
    (checkers schemas).Uniform := by
  intro entry hm
  rcases List.mem_map.mp hm with ⟨schema, hs', he⟩
  subst he
  exact h.named hs schema hs'

theorem Uniform.matched (h : m.Uniform) (hs : m.matched = .ok schemas) :
    (matchedCheckers schemas).Uniform := by
  intro entry hm
  rcases List.mem_map.mp hm with ⟨schema, hp, he⟩
  subst he
  rcases bind_eq_ok hs with ⟨named, hn, hs⟩
  rcases exists_of_mapM_eq_ok hs schema hp with ⟨⟨text, source⟩, hm, he⟩
  have hu : source.check.Uniform := h.named hn (text, source) hm
  dsimp only at he
  split at he
  . cases he
    exact hu
  . cases he

theorem Uniform.additionalProperties (h : m.Uniform) (hc : m.additionalProperties = .ok c) :
    c.Uniform := by
  rcases bind_eq_ok hc with ⟨named, hn, hc⟩
  rcases bind_eq_ok hc with ⟨patterns, hm, hc⟩
  dsimp only at hc
  split at hc
  . cases hc
    exact Checker.uniform_always
  . split at hc
    . cases hc
      exact Checker.uniform_closed (h.checkers hn) (h.matched hm)
    . cases hc
      exact Checker.uniform_propertyless
  . rcases bind_eq_ok hc with ⟨rest, hr, hc⟩
    cases hc
    exact Checker.uniform_additional (h.checkers hn) (h.matched hm) (h.one hr)

theorem Uniform.items (h : m.Uniform) (hc : m.items key value = .ok c) : c.Uniform := by
  unfold Members.items at hc
  split at hc
  . rcases bind_eq_ok hc with ⟨schemas, hs, hc⟩
    cases hc
    exact Checker.uniform_tuple (h.many hs)
  . rcases bind_eq_ok hc with ⟨schema, hs, hc⟩
    cases hc
    exact Checker.uniform_items (h.one hs)

theorem Uniform.additionalItems (h : m.Uniform) (hc : m.additionalItems value = .ok c) :
    c.Uniform := by
  unfold Members.additionalItems at hc
  split at hc
  . cases hc
    exact Checker.uniform_keyword
  . rcases bind_eq_ok hc with ⟨schema, hs, hc⟩
    cases hc
    exact Checker.uniform_items (h.one hs)
  . cases hc
    exact Checker.uniform_always

theorem Uniform.contains (hc : m.contains = .ok c) : c.Uniform := by
  rcases bind_eq_ok hc with ⟨item, _, hc⟩
  dsimp only at hc
  split at hc
  . rcases bind_eq_ok hc with ⟨least, _, hc⟩
    rcases bind_eq_ok hc with ⟨most, _, hc⟩
    cases hc
    exact Checker.uniform_contains
  . cases hc
    exact Checker.uniform_contains

theorem Uniform.conditional (h : m.Uniform) (hc : m.conditional = .ok c) : c.Uniform := by
  have hb : ∀ key branch, (if m.has key then Subschema.check <$> m.one key else .ok .always) = .ok branch →
      branch.Uniform := by
    intro key branch hb
    split at hb
    . rcases map_eq_ok hb with ⟨s, hs, he⟩
      subst he
      exact h.one hs
    . cases hb
      exact Checker.uniform_always
  unfold Members.conditional at hc
  dsimp only at hc
  split at hc
  . rcases bind_eq_ok hc with ⟨condition, _, hc⟩
    rcases bind_eq_ok hc with ⟨yes, hy, hc⟩
    rcases bind_eq_ok hc with ⟨no, hn, hc⟩
    cases hc
    exact Checker.uniform_conditional (hb _ _ hy) (hb _ _ hn)
  . cases hc
    exact Checker.uniform_always

theorem Uniform.reference (h : m.Uniform) (hr : m.reference? key value = some (.ok s)) :
    s.check.Uniform := by
  unfold reference? at hr
  split at hr
  . exact h.refer _ _ (Option.some.inj hr)
  . split at hr
    . exact h.refer _ _ (Option.some.inj hr)
    . cases hr
  . split at hr
    . exact h.refer _ _ (Option.some.inj hr)
    . cases hr
  . cases hr

theorem Uniform.within (h : m.Uniform) (hr : m.reference? key value = some schema)
    (hc : (do return Checker.within [key] (← schema).check) = Except.ok c) : c.Uniform := by
  rcases bind_eq_ok hc with ⟨s, hs, hc⟩
  subst hs
  cases hc
  exact Checker.uniform_within (h.reference hr)

theorem uniform_of_map {f : α → Checker} (hf : ∀ a, (f a).Uniform) (hc : Option.map f x = some c) :
    c.Uniform := by
  rcases Option.map_eq_some_iff.mp hc with ⟨a, _, he⟩
  subst he
  apply hf

theorem uniform_plain (hc : m.plain? key value = some c) : c.Uniform := by
  have hk := @Checker.uniform_keyword
  unfold plain? at hc
  split at hc
  . exact uniform_of_map (fun _ => hk) hc
  . cases hc
    exact hk
  . exact uniform_of_map (fun _ => hk) hc
  . apply uniform_of_map _ hc
    intro limit
    split <;> exact hk
  . apply uniform_of_map _ hc
    intro limit
    split <;> exact hk
  . exact uniform_of_map (fun _ => hk) hc
  . exact uniform_of_map (fun _ => hk) hc
  . exact uniform_of_map (fun _ => hk) hc
  . exact uniform_of_map (fun _ => hk) hc
  . exact uniform_of_map (fun _ => hk) hc
  . rcases Option.bind_eq_some_iff.mp hc with ⟨text, _, hc⟩
    rcases Option.bind_eq_some_iff.mp hc with ⟨pattern, _, hc⟩
    cases hc
    exact hk
  . exact uniform_of_map (fun _ => hk) hc
  . exact uniform_of_map (fun _ => hk) hc
  . apply uniform_of_map _ hc
    intro unique
    split
    . exact hk
    . exact Checker.uniform_always
  . exact uniform_of_map (fun _ => hk) hc
  . exact uniform_of_map (fun _ => hk) hc
  . exact uniform_of_map (fun _ => Checker.uniform_required) hc
  . rcases Option.bind_eq_some_iff.mp hc with ⟨members, _, hc⟩
    rcases Option.bind_eq_some_iff.mp hc with ⟨entries, _, hc⟩
    cases hc
    exact Checker.uniform_dependentRequired
  . cases hc
    split
    . exact Checker.uniform_always
    . exact Checker.uniform_contentEncoding
  . cases hc
    exact Checker.uniform_contentMediaType
  . cases hc
    exact Checker.uniform_always

theorem Uniform.keyword (h : m.Uniform) (hc : m.keyword key value = .ok c) : c.Uniform := by
  unfold Members.keyword at hc
  split at hc
  . split at hc
    . next schema hr => exact h.within hr hc
    . cases hc
      exact Checker.uniform_always
  . split at hc
    . next schema hr => exact h.within hr hc
    . cases hc
      exact Checker.uniform_always
  . split at hc
    . next schema hr => exact h.within hr hc
    . cases hc
      exact Checker.uniform_always
  . exact h.additionalItems hc
  . exact h.additionalProperties hc
  . rcases bind_eq_ok hc with ⟨schemas, hs, hc⟩
    cases hc
    exact Checker.uniform_allOf (h.many hs)
  . rcases bind_eq_ok hc with ⟨schemas, _, hc⟩
    cases hc
    exact Checker.uniform_anyOf
  . rcases bind_eq_ok hc with ⟨schemas, _, hc⟩
    cases hc
    exact Checker.uniform_oneOf
  . rcases bind_eq_ok hc with ⟨schema, _, hc⟩
    cases hc
    exact Checker.uniform_keyword
  . exact h.conditional hc
  . exact Uniform.contains hc
  . rcases bind_eq_ok hc with ⟨schemas, hs, hc⟩
    cases hc
    exact Checker.uniform_tuple (h.many hs)
  . exact h.items hc
  . rcases bind_eq_ok hc with ⟨schemas, hs, hc⟩
    cases hc
    split
    . exact Checker.uniform_always
    . exact Checker.uniform_properties (h.checkers hs)
  . rcases bind_eq_ok hc with ⟨schemas, hs, hc⟩
    cases hc
    split
    . exact Checker.uniform_always
    . exact Checker.uniform_patternProperties (h.matched hs)
  . rcases bind_eq_ok hc with ⟨schema, hs, hc⟩
    cases hc
    split
    . exact Checker.uniform_nameless
    . exact Checker.uniform_propertyNames (h.one hs)
  . rcases bind_eq_ok hc with ⟨schemas, hs, hc⟩
    cases hc
    exact Checker.uniform_dependentSchemas (h.checkers hs)
  . rcases bind_eq_ok hc with ⟨schemas, hs, hc⟩
    cases hc
    exact Checker.uniform_dependencies (h.checkers hs)
  . rcases bind_eq_ok hc with ⟨schema, _, hc⟩
    cases hc
    split
    . exact Checker.uniform_always
    . exact Checker.uniform_unevaluatedProperties
  . rcases bind_eq_ok hc with ⟨schema, _, hc⟩
    cases hc
    split
    . exact Checker.uniform_always
    . exact Checker.uniform_unevaluatedItems
  . split at hc
    . next hp =>
      cases hc
      exact uniform_plain hp
    . cases hc

theorem Uniform.subschema (h : m.Uniform) (hs : m.subschema = .ok s) : s.check.Uniform := by
  rcases bind_eq_ok hs with ⟨checkers, hc, hs⟩
  cases hs
  apply Checker.uniform_all
  intro c hm
  rcases exists_of_mapM_eq_ok hc c hm with ⟨member, _, hk⟩
  exact h.keyword hk

end Members

variable {refer : String → Except String Subschema}

def UniformRefer (refer : String → Except String Subschema) : Prop :=
  ∀ reference s, refer reference = .ok s → s.check.Uniform

-- One theorem for each of the functions that read a schema together.
mutual

theorem uniform_compile (hr : UniformRefer refer) (h : compile refer draft schema = .ok s) :
    s.check.Uniform := by
  match schema with
  | .bool true =>
    cases h
    exact Checker.uniform_always
  | .bool false =>
    cases h
    exact Checker.uniform_never
  | .object members =>
    unfold compile at h
    refine Members.Uniform.subschema ?_ h
    constructor
    . exact uniform_compileMembers hr
    . exact hr
  | .null | .number _ | .string _ | .list _ => cases h

theorem uniform_compileMembers (hr : UniformRefer refer) :
    ∀ entry ∈ compileMembers refer draft members, entry.2.Uniform := by
  match members with
  | [] => simp [compileMembers]
  | (key, .list items) :: rest =>
    unfold compileMembers
    rw [List.forall_mem_cons]
    refine ⟨?_, uniform_compileMembers hr⟩
    dsimp only
    split
    . exact fun _ h => uniform_compileItems hr h
    . trivial
  | (key, .object entries) :: rest =>
    unfold compileMembers
    rw [List.forall_mem_cons]
    refine ⟨?_, uniform_compileMembers hr⟩
    dsimp only
    split
    . exact fun _ h => uniform_compileEntries hr h
    . split
      . exact fun _ h => uniform_compileDependencies hr h
      . split
        . exact fun _ h => uniform_compile hr h
        . trivial
  | (key, .null) :: rest | (key, .bool value) :: rest | (key, .number value) :: rest
  | (key, .string value) :: rest =>
    unfold compileMembers
    rw [List.forall_mem_cons]
    refine ⟨?_, uniform_compileMembers hr⟩
    dsimp only
    split
    . exact fun _ h => uniform_compile hr h
    . trivial

theorem uniform_compileItems (hr : UniformRefer refer) (h : compileItems refer draft items = .ok schemas) :
    ∀ s ∈ schemas, s.check.Uniform := by
  match items with
  | [] =>
    cases h
    simp
  | schema :: rest =>
    rcases bind_eq_ok h with ⟨first, hf, h⟩
    rcases bind_eq_ok h with ⟨others, ho, h⟩
    cases h
    rw [List.forall_mem_cons]
    exact ⟨uniform_compile hr hf, uniform_compileItems hr ho⟩

theorem uniform_compileEntries (hr : UniformRefer refer)
    (h : compileEntries refer draft entries = .ok schemas) :
    ∀ entry ∈ schemas, entry.2.check.Uniform := by
  match entries with
  | [] =>
    cases h
    simp
  | (name, schema) :: rest =>
    rcases bind_eq_ok h with ⟨first, hf, h⟩
    rcases bind_eq_ok h with ⟨others, ho, h⟩
    cases h
    rw [List.forall_mem_cons]
    exact ⟨uniform_compile hr hf, uniform_compileEntries hr ho⟩

theorem uniform_compileDependencies (hr : UniformRefer refer)
    (h : compileDependencies refer draft entries = .ok schemas) :
    ∀ entry ∈ schemas, entry.2.check.Uniform := by
  match entries with
  | [] =>
    cases h
    simp
  | (name, value) :: rest =>
    unfold compileDependencies at h
    dsimp only at h
    split at h
    . rcases bind_eq_ok h with ⟨first, hf, h⟩
      rcases bind_eq_ok h with ⟨others, ho, h⟩
      cases hf
      cases h
      rw [List.forall_mem_cons]
      refine ⟨?_, uniform_compileDependencies hr ho⟩
      exact Checker.uniform_within Checker.uniform_missing
    . rcases bind_eq_ok h with ⟨schema, hs, h⟩
      rcases bind_eq_ok h with ⟨first, hf, h⟩
      rcases bind_eq_ok h with ⟨others, ho, h⟩
      cases hf
      cases h
      rw [List.forall_mem_cons]
      refine ⟨?_, uniform_compileDependencies hr ho⟩
      exact Checker.uniform_within (uniform_compile hr hs)

end

theorem uniform_follow (root : Json) (draft : Draft) (fuel : Nat) (followed : List String) :
    UniformRefer (follow root draft fuel followed) := by
  induction fuel generalizing followed with
  | zero =>
    intro reference s h
    cases h
  | succ fuel ih =>
    intro reference s h
    unfold follow at h
    split at h
    . cases h
    . next target _ =>
      split at h
      . cases h
        -- What is read later, on a document, is as uniform as what is read at once.
        intro d p q hp
        dsimp only [Subschema.postponed] at *
        generalize hs : compile (follow root draft fuel []) draft target = read at *
        cases read with
        | error _ => rfl
        | ok s => exact uniform_compile (ih _) hs d p q hp
      . exact uniform_compile (ih _) h

theorem uniform_read (h : read schema = .ok s) : s.check.Uniform := by
  unfold read at h
  split at h
  . cases h
  . split at h
    . exact uniform_compile (uniform_follow _ _ _ _) h
    . cases h

end Schema

end Turnstile
