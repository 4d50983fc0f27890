import Turnstile.Proofs.Schema.Reach

/-!
This module contains the full expansion of a schema as a relation that knows neither of chains nor of
limits: each reference is replaced by the expansion of what it leads to.
-/

namespace Turnstile

namespace Definitions

open Schema

mutual

/-- The second value is the first one with all its references replaced. -/
inductive Expands (defs : Definitions) : Json → Json → Prop where
  | atom : value.isObject = false → Expands defs value value
  | keywords :
    members.lookup "$ref" = none → ExpandsMembers defs members expanded →
      Expands defs (.object members) (.object expanded)
  | reference :
    members.lookup "$ref" = some reference → defs.fetch? reference = some fetched →
      Expands defs fetched target → ExpandsMembers defs members [] →
      Expands defs (.object members) target
  | conjunction :
    members.lookup "$ref" = some reference → defs.fetch? reference = some fetched →
      Expands defs fetched target → ExpandsMembers defs members siblings → siblings ≠ [] →
      Expands defs (.object members) (.object [("allOf", .list [target, .object siblings])])

inductive ExpandsMembers (defs : Definitions) :
    List (String × Json) → List (String × Json) → Prop where
  | nil : ExpandsMembers defs [] []
  | reference :
    ExpandsMembers defs rest expanded → ExpandsMembers defs (("$ref", value) :: rest) expanded
  | keyword :
    key ≠ "$ref" → ExpandsValue defs key value inlined → ExpandsMembers defs rest expanded →
      ExpandsMembers defs ((key, value) :: rest) ((key, inlined) :: expanded)

/-- The value of a keyword, whose role depends on the keyword. -/
inductive ExpandsValue (defs : Definitions) : String → Json → Json → Prop where
  | data : key ∈ dataKeywords → ExpandsValue defs key value value
  | named :
    key ∉ dataKeywords → key ∈ mapKeywords → ExpandsEntries defs entries expanded →
      ExpandsValue defs key (.object entries) (.object expanded)
  | items :
    key ∉ dataKeywords → ExpandsItems defs items expanded →
      ExpandsValue defs key (.list items) (.list expanded)
  | schema :
    key ∉ dataKeywords → value.list? = none → (value.isObject → key ∉ mapKeywords) →
      Expands defs value expanded → ExpandsValue defs key value expanded

inductive ExpandsEntries (defs : Definitions) :
    List (String × Json) → List (String × Json) → Prop where
  | nil : ExpandsEntries defs [] []
  | entry :
    Expands defs schema inlined → ExpandsEntries defs rest expanded →
      ExpandsEntries defs ((name, schema) :: rest) ((name, inlined) :: expanded)

inductive ExpandsItems (defs : Definitions) : List Json → List Json → Prop where
  | nil : ExpandsItems defs [] []
  | item :
    Expands defs schema inlined → ExpandsItems defs rest expanded →
      ExpandsItems defs (schema :: rest) (inlined :: expanded)

end

def Sound (defs : Definitions) (expand : Json → Except SchemaError Json) : Prop :=
  ∀ reference target, expand reference = .ok target →
    ∃ fetched, defs.fetch? reference = some fetched ∧ defs.Expands fetched target

end Definitions

namespace Schema

open Definitions

variable {defs : Definitions} {expand : Json → Except SchemaError Json}

theorem join_sound (hs : defs.Sound expand)
    (hm : ∀ expanded, siblings = .ok expanded → defs.ExpandsMembers members expanded)
    (h : join expand members siblings = .ok v) : defs.Expands (.object members) v := by
  unfold join at h
  split at h
  . next hr =>
    rcases map_eq_ok h with ⟨expanded, he, rfl⟩
    exact .keywords hr (hm expanded he)
  . next reference hr =>
    rcases bind_eq_ok h with ⟨target, ht, h⟩
    rcases bind_eq_ok h with ⟨expanded, he, h⟩
    rcases hs reference target ht with ⟨fetched, hf, ht⟩
    split at h
    . cases h
      exact .reference hr hf ht (hm [] he)
    . next hn =>
      cases h
      exact .conjunction hr hf ht (hm expanded he) hn

mutual

theorem inline_sound (hs : defs.Sound expand) (h : inline expand schema = .ok v) :
    defs.Expands schema v := by
  match schema with
  | .object members =>
    apply join_sound hs _ h
    intro expanded he
    exact inlineMembers_sound hs he
  | .null | .bool _ | .number _ | .string _ | .list _ =>
    cases h
    exact .atom rfl

theorem inlineMembers_sound (hs : defs.Sound expand) (h : inlineMembers expand members = .ok expanded) :
    defs.ExpandsMembers members expanded := by
  match members with
  | [] =>
    cases h
    exact .nil
  | (key, value) :: rest =>
    unfold inlineMembers at h
    split at h
    . next hk =>
      subst hk
      exact .reference (inlineMembers_sound hs h)
    . next hk =>
      rcases bind_eq_ok h with ⟨inlined, hi, h⟩
      rcases bind_eq_ok h with ⟨others, ho, h⟩
      cases h
      exact .keyword hk (inlineValue_sound hs hi) (inlineMembers_sound hs ho)

theorem inlineValue_sound (hs : defs.Sound expand) (h : inlineValue expand key value = .ok v) :
    defs.ExpandsValue key value v := by
  match value with
  | .object entries =>
    unfold inlineValue at h
    split at h
    . next hd =>
      cases h
      exact .data (by simpa using hd)
    . next hd =>
      split at h
      . next hm =>
        rcases map_eq_ok h with ⟨expanded, he, rfl⟩
        exact .named (by simpa using hd) (by simpa using hm) (inlineEntries_sound hs he)
      . next hm =>
        apply ExpandsValue.schema (by simpa using hd) rfl (fun _ => by simpa using hm)
        apply join_sound hs _ h
        intro expanded he
        exact inlineMembers_sound hs he
  | .list items =>
    unfold inlineValue at h
    split at h
    . next hd =>
      cases h
      exact .data (by simpa using hd)
    . next hd =>
      rcases map_eq_ok h with ⟨expanded, he, rfl⟩
      exact .items (by simpa using hd) (inlineItems_sound hs he)
  | .null | .bool _ | .number _ | .string _ =>
    cases h
    by_cases hd : key ∈ dataKeywords
    . exact .data hd
    . exact .schema hd rfl (fun ho => by cases ho) (.atom rfl)

theorem inlineEntries_sound (hs : defs.Sound expand) (h : inlineEntries expand entries = .ok expanded) :
    defs.ExpandsEntries entries expanded := by
  match entries with
  | [] =>
    cases h
    exact .nil
  | (name, schema) :: rest =>
    rcases bind_eq_ok h with ⟨inlined, hi, h⟩
    rcases bind_eq_ok h with ⟨others, ho, h⟩
    cases h
    exact .entry (inline_sound hs hi) (inlineEntries_sound hs ho)

theorem inlineItems_sound (hs : defs.Sound expand) (h : inlineItems expand items = .ok expanded) :
    defs.ExpandsItems items expanded := by
  match items with
  | [] =>
    cases h
    exact .nil
  | schema :: rest =>
    rcases bind_eq_ok h with ⟨inlined, hi, h⟩
    rcases bind_eq_ok h with ⟨others, ho, h⟩
    cases h
    exact .item (inline_sound hs hi) (inlineItems_sound hs ho)

end

end Schema

namespace Definitions

open Schema

variable {defs : Definitions}

mutual

theorem Expands.unique (h : Expands defs s v) (h' : Expands defs s w) : v = w := by
  match h with
  | .atom ho =>
    cases h' with
    | atom => rfl
    | keywords | reference | conjunction => cases ho
  | .keywords hr hm =>
    cases h' with
    | atom ho => cases ho
    | keywords _ hm' => rw [hm.unique hm']
    | reference hr' => simp [hr] at hr'
    | conjunction hr' => simp [hr] at hr'
  | .reference hr hf ht hm =>
    cases h' with
    | atom ho => cases ho
    | keywords hr' => simp [hr] at hr'
    | reference hr' hf' ht' =>
      cases hr.symm.trans hr'
      cases hf.symm.trans hf'
      exact ht.unique ht'
    | conjunction _ _ _ hm' hn => exact absurd (hm.unique hm').symm hn
  | .conjunction hr hf ht hm hn =>
    cases h' with
    | atom ho => cases ho
    | keywords hr' => simp [hr] at hr'
    | reference _ _ _ hm' => exact absurd (hm.unique hm') hn
    | conjunction hr' hf' ht' hm' =>
      cases hr.symm.trans hr'
      cases hf.symm.trans hf'
      rw [ht.unique ht', hm.unique hm']
termination_by structural h

theorem ExpandsMembers.unique (h : ExpandsMembers defs members v) (h' : ExpandsMembers defs members w) :
    v = w := by
  match h with
  | .nil =>
    cases h'
    rfl
  | .reference hm =>
    cases h' with
    | reference hm' => exact hm.unique hm'
    | keyword hk => exact absurd rfl hk
  | .keyword hk hv hm =>
    cases h' with
    | reference => exact absurd rfl hk
    | keyword _ hv' hm' => rw [hv.unique hv', hm.unique hm']
termination_by structural h

theorem ExpandsValue.unique (h : ExpandsValue defs key s v) (h' : ExpandsValue defs key s w) : v = w := by
  match h with
  | .data hd =>
    cases h' with
    | data => rfl
    | named hd' | items hd' | schema hd' => exact absurd hd hd'
  | .named hd hk he =>
    cases h' with
    | data hd' => exact absurd hd' hd
    | named _ _ he' => rw [he.unique he']
    | schema _ _ hk' => exact absurd hk (hk' rfl)
  | .items hd hi =>
    cases h' with
    | data hd' => exact absurd hd' hd
    | items _ hi' => rw [hi.unique hi']
    | schema _ hl => cases hl
  | .schema hd hl hk hs =>
    cases h' with
    | data hd' => exact absurd hd' hd
    | named _ hk' => exact absurd hk' (hk rfl)
    | items => cases hl
    | schema _ _ _ hs' => exact hs.unique hs'
termination_by structural h

theorem ExpandsEntries.unique (h : ExpandsEntries defs s v) (h' : ExpandsEntries defs s w) : v = w := by
  match h with
  | .nil =>
    cases h'
    rfl
  | .entry hs hr =>
    cases h' with
    | entry hs' hr' => rw [hs.unique hs', hr.unique hr']
termination_by structural h

theorem ExpandsItems.unique (h : ExpandsItems defs s v) (h' : ExpandsItems defs s w) : v = w := by
  match h with
  | .nil =>
    cases h'
    rfl
  | .item hs hr =>
    cases h' with
    | item hs' hr' => rw [hs.unique hs', hr.unique hr']
termination_by structural h

end

/-- From everything one step away the property passes to a schema whose own reference leads somewhere. -/
def Passes (defs : Definitions) (P : Json → Prop) : Prop :=
  ∀ schema, (∀ reference, schema.get? "$ref" = some reference → (defs.fetch? reference).isSome) →
    (∀ next, defs.Step schema next → P next) → P schema

variable {P : Json → Prop}

theorem Passes.object (hp : defs.Passes P) (ha : ∀ nested, Among members nested → P nested)
    (hf : ∀ reference, members.lookup "$ref" = some reference →
      ∃ fetched, defs.fetch? reference = some fetched ∧ P fetched) : P (.object members) := by
  apply hp
  . intro reference hr
    rcases hf reference hr with ⟨fetched, hf, _⟩
    simp [hf]
  . intro next hs
    rcases hs with ⟨_, hm, hb⟩ | ⟨reference, hr, hn⟩
    . cases hm
      exact ha next hb
    . rcases hf reference hr with ⟨fetched, hf, hfp⟩
      cases hf.symm.trans hn
      exact hfp

mutual

theorem Expands.passes (hp : defs.Passes P) (h : Expands defs s v) : P s := by
  match h with
  | .atom ho =>
    apply hp
    . intro reference hr
      simp [isObject_of_get? hr] at ho
    . intro next hs
      simp [hs.isObject] at ho
  | .keywords hr hm =>
    apply hp.object (hm.passes hp)
    intro reference hr'
    simp [hr] at hr'
  | .reference hr hf ht hm | .conjunction hr hf ht hm _ =>
    apply hp.object (hm.passes hp)
    intro reference hr'
    cases hr.symm.trans hr'
    exact ⟨_, hf, ht.passes hp⟩
termination_by structural h

theorem ExpandsMembers.passes (hp : defs.Passes P) (h : ExpandsMembers defs members v) :
    ∀ nested, Among members nested → P nested := by
  intro nested ha
  rcases ha with ⟨key, value, hm, hk, hd, hi⟩
  -- The hypotheses of the induction come first, as they are about the members before any is looked up.
  match h with
  | .nil => cases hm
  | .reference hr =>
    have ih := hr.passes hp
    cases hm with
    | head => exact absurd rfl hk
    | tail _ hm => exact ih nested ⟨key, value, hm, hk, hd, hi⟩
  | .keyword _ hv hr =>
    have ihv := hv.passes hp
    have ihr := hr.passes hp
    cases hm with
    | head => exact ihv hd nested hi
    | tail _ hm => exact ihr nested ⟨key, value, hm, hk, hd, hi⟩
termination_by structural h

theorem ExpandsValue.passes (hp : defs.Passes P) (h : ExpandsValue defs key value v)
    (hd : key ∉ dataKeywords) : ∀ nested, Holds key value nested → P nested := by
  intro nested hi
  match h with
  | .data hd' => exact absurd hd' hd
  | .named _ hk he =>
    have ih := he.passes hp
    cases hi with
    | named _ hm => exact ih _ _ hm
    | schema _ hk' => exact absurd hk (hk' rfl)
  | .items _ hs =>
    have ih := hs.passes hp
    cases hi with
    | item hm => exact ih _ hm
    | schema hl => cases hl
  | .schema _ hl hk hs =>
    have ih := hs.passes hp
    cases hi with
    | named hk' => exact absurd hk' (hk rfl)
    | item => cases hl
    | schema => exact ih
termination_by structural h

theorem ExpandsEntries.passes (hp : defs.Passes P) (h : ExpandsEntries defs entries v) :
    ∀ name schema, (name, schema) ∈ entries → P schema := by
  intro name schema hm
  match h with
  | .nil => cases hm
  | .entry hs hr =>
    have ihs := hs.passes hp
    have ihr := hr.passes hp
    cases hm with
    | head => exact ihs
    | tail _ hm => exact ihr name schema hm
termination_by structural h

theorem ExpandsItems.passes (hp : defs.Passes P) (h : ExpandsItems defs items v) :
    ∀ schema ∈ items, P schema := by
  intro schema hm
  match h with
  | .nil => cases hm
  | .item hs hr =>
    have ihs := hs.passes hp
    have ihr := hr.passes hp
    cases hm with
    | head => exact ihs
    | tail _ hm => exact ihr schema hm
termination_by structural h

end

theorem Expands.not_cyclic (h : Expands defs s v) : ¬ defs.Cyclic s := by
  apply h.passes
  intro schema _ hn hc
  rcases hc with ⟨nested, hr, hl⟩
  -- Wherever the cycle starts, one gets to it from the next schema as well.
  cases hr.cases_head with
  | inl hs =>
    subst hs
    rcases Relation.TransGen.head'_iff.mp hl with ⟨next, hs, hp⟩
    exact hn next hs ⟨schema, hp, hl⟩
  | inr hs =>
    rcases hs with ⟨next, hs, hp⟩
    exact hn next hs ⟨nested, hp, hl⟩

theorem Expands.not_dangling (h : Expands defs s v) : ¬ defs.Dangling s := by
  apply h.passes
  intro schema hf hn hd
  rcases hd with ⟨nested, reference, hr, hg, hd⟩
  cases hr.cases_head with
  | inl hs =>
    subst hs
    have := hf reference hg
    simp [hd] at this
  | inr hs =>
    rcases hs with ⟨next, hs, hp⟩
    exact hn next hs ⟨nested, reference, hp, hg, hd⟩

end Definitions

end Turnstile
