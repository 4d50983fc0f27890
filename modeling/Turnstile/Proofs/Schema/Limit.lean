import Turnstile.Proofs.Schema.Asking
import Turnstile.Proofs.Schema.Chain

/-!
This module contains the proof that the limit on chains of references is never reached: a chain does not
repeat itself, and there are fewer spellings to choose from than the limit allows. What following a reference
gives depends only on the names that are looked up for it.
-/

namespace Turnstile

namespace Json

mutual

def refValues : Json → List Json
  | .list items => itemsRefValues items
  | .object members => membersRefValues members
  | _ => []

def itemsRefValues : List Json → List Json
  | [] => []
  | item :: rest => item.refValues ++ itemsRefValues rest

def membersRefValues : List (String × Json) → List Json
  | [] => []
  | (key, value) :: rest =>
    (if key = "$ref" then [value] else []) ++ value.refValues ++ membersRefValues rest

end

mutual

theorem length_refValues (value : Json) : value.refValues.length = value.refCount := by
  match value with
  | .list items => exact length_itemsRefValues items
  | .object members => exact length_membersRefValues members
  | .null | .bool _ | .number _ | .string _ => rfl

theorem length_itemsRefValues (items : List Json) :
    (itemsRefValues items).length = itemsRefCount items := by
  match items with
  | [] => rfl
  | item :: rest =>
    unfold itemsRefValues itemsRefCount
    rw [List.length_append, length_refValues item, length_itemsRefValues rest]

theorem length_membersRefValues (members : List (String × Json)) :
    (membersRefValues members).length = membersRefCount members := by
  match members with
  | [] => rfl
  | (key, value) :: rest =>
    unfold membersRefValues membersRefCount
    rw [List.length_append, List.length_append, length_refValues value, length_membersRefValues rest]
    split <;> rfl

end

theorem refValues_subset_of_item (h : item ∈ items) : item.refValues ⊆ (Json.list items).refValues := by
  show item.refValues ⊆ itemsRefValues items
  induction h with
  | head => exact List.subset_append_left _ _
  | tail _ _ ih => exact List.subset_append_of_subset_right _ ih

theorem refValues_subset_of_member (h : (key, value) ∈ members) :
    value.refValues ⊆ (Json.object members).refValues := by
  show value.refValues ⊆ membersRefValues members
  induction members with
  | nil => cases h
  | cons member rest ih =>
    cases h with
    | head =>
      apply List.subset_append_of_subset_left
      exact List.subset_append_right _ _
    | tail _ h => exact List.subset_append_of_subset_right _ (ih h)

theorem mem_refValues {schema : Json} (h : schema.get? "$ref" = some reference) : reference ∈ schema.refValues := by
  unfold get? at h
  split at h
  . next members =>
    show reference ∈ membersRefValues members
    induction members with
    | nil => cases h
    | cons member rest ih =>
      rcases member with ⟨key, value⟩
      unfold membersRefValues
      rw [List.lookup_cons] at h
      split at h
      . next hk => simp_all
      . simp [ih h]
  . cases h

theorem refValues_subset_of_child? {value part : Json} (h : value.child? key = some part) :
    part.refValues ⊆ value.refValues := by
  unfold child? at h
  split at h
  . next members =>
    rcases List.lookup_eq_some_iff.mp h with ⟨before, behind, hm, _⟩
    have : (key, part) ∈ members := by simp [hm]
    exact refValues_subset_of_member this
  . rcases Option.bind_eq_some_iff.mp h with ⟨i, _, hi⟩
    exact refValues_subset_of_item (List.mem_of_getElem? hi)
  . cases h

theorem refValues_subset_of_descend? {value part : Json} (h : value.descend? keys = some part) :
    part.refValues ⊆ value.refValues := by
  induction keys generalizing value with
  | nil =>
    cases h
    exact List.Subset.refl _
  | cons key keys ih =>
    rcases Option.bind_eq_some_iff.mp h with ⟨child, hc, hp⟩
    exact List.Subset.trans (ih hp) (refValues_subset_of_child? hc)

end Json

namespace Schema

theorem Holds.refValues_subset (h : Holds key value nested) : nested.refValues ⊆ value.refValues := by
  cases h with
  | named _ hm => exact Json.refValues_subset_of_member hm
  | item hm => exact Json.refValues_subset_of_item hm
  | schema => exact List.Subset.refl _

theorem Below.refValues_subset (h : Below outer nested) : nested.refValues ⊆ outer.refValues := by
  rcases h with ⟨members, rfl, key, value, hm, _, _, hi⟩
  exact List.Subset.trans hi.refValues_subset (Json.refValues_subset_of_member hm)

theorem Within.refValues_subset (h : Within outer nested) : nested.refValues ⊆ outer.refValues := by
  induction h with
  | refl => exact List.Subset.refl _
  | tail _ hb ih => exact List.Subset.trans hb.refValues_subset ih

end Schema

namespace Definitions

variable {defs : Definitions}

def refValues (defs : Definitions) : List Json :=
  defs.entries.flatMap fun (_, schema) => schema.refValues

def spellings (defs : Definitions) : List String :=
  defs.refValues.filterMap spelling?

theorem length_spellings_lt (defs : Definitions) : defs.spellings.length < defs.depthLimit := by
  have hs : defs.spellings.length ≤ defs.refValues.length := List.length_filterMap_le _ _
  have hr : defs.refValues.length < defs.depthLimit := by
    unfold refValues depthLimit
    induction defs.entries with
    | nil => simp
    | cons entry rest ih =>
      rw [List.flatMap_cons, List.length_append, List.foldr_cons, Json.length_refValues]
      dsimp only at ih ⊢
      omega
  omega

theorem refValues_subset_of_fetch? (h : defs.fetch? reference = some fetched) :
    fetched.refValues ⊆ defs.refValues := by
  simp only [fetch?, find?, Option.bind_eq_bind, Option.bind_eq_some_iff] at h
  rcases h with ⟨_, _, target, _, definition, hd, hp⟩
  rcases List.lookup_eq_some_iff.mp hd with ⟨before, behind, hm, _⟩
  rcases Option.bind_eq_some_iff.mp hp with ⟨keys, _, hk⟩
  apply List.Subset.trans (Json.refValues_subset_of_descend? hk)
  intro value hv
  unfold refValues
  rw [hm]
  simp [hv]

/-- The limit lets a chain without repetition use up the whole pool of spellings. -/
structure Room (defs : Definitions) (pool : List String) (limit : Nat) (chain : List String) :
    Prop where
  nodup : chain.Nodup
  subset : chain ⊆ pool
  all : defs.spellings ⊆ pool
  enough : pool.length < limit + chain.length

theorem Room.limit_pos (h : Room defs pool limit chain) : 0 < limit := by
  have hl := h.nodup.length_le_of_subset h.subset
  have he := h.enough
  omega

theorem Room.push (h : Room defs pool (limit + 1) chain) (hc : spelling ∉ chain)
    (hs : spelling ∈ pool) : Room defs pool limit (chain ++ [spelling]) where
  nodup := by
    rw [List.nodup_append]
    refine ⟨h.nodup, by simp, ?_⟩
    intro other ho last hl
    simp only [List.mem_singleton] at hl
    rw [hl]
    exact ne_of_mem_of_not_mem ho hc
  subset := by simpa [hs] using h.subset
  all := h.all
  enough := by
    have := h.enough
    simp only [List.length_append, List.length_singleton]
    omega

def Known (pool : List String) (reference : Json) : Prop :=
  ∀ spelling, spelling? reference = some spelling → spelling ∈ pool

theorem known_of_fetched (hs : defs.spellings ⊆ pool) (hf : defs.fetch? reference = some fetched)
    (hw : Schema.Within fetched nested) (hr : nested.get? "$ref" = some next) : Known pool next := by
  intro spelling h
  apply hs
  unfold Definitions.spellings
  rw [List.mem_filterMap]
  refine ⟨next, ?_, h⟩
  exact refValues_subset_of_fetch? hf (hw.refValues_subset (Json.mem_refValues hr))

/-- The names that are looked up when a reference is followed inside the references of a chain, in their order. -/
def lookups (defs : Definitions) : Nat → List String → Json → List String
  | limit, chain, reference =>
    match reference with
    | .string text =>
      match Reference.ofText? text with
      | none => []
      | some target =>
        if chain.contains target.canonical then []
        else
          target.name ::
            match defs.find? target, limit with
            | some fetched, limit + 1 =>
              (Schema.asked (defs.expand limit (chain ++ [target.canonical])) fetched).flatMap
                (lookups defs limit (chain ++ [target.canonical]))
            | _, _ => []
    | _ => []

theorem find?_congr {other : Definitions} (h : other.get? target.name = defs.get? target.name) :
    other.find? target = defs.find? target := by
  unfold find?
  rw [h]

/--
Following a reference depends on the definitions that are looked up, and not on the limit if there is room for all
spellings.
-/
theorem expand_eq_of_lookups {other : Definitions} (hroom : Room defs pool limit chain) (hl : limit ≤ bound)
    (hk : Known pool reference)
    (h : ∀ name ∈ defs.lookups limit chain reference, other.get? name = defs.get? name) :
    other.expand bound chain reference = defs.expand limit chain reference := by
  induction limit generalizing bound chain reference with
  | zero => exact absurd hroom.limit_pos (by simp)
  | succ limit ih =>
    cases bound with
    | zero => cases hl
    | succ bound =>
      unfold lookups at h
      unfold expand
      split
      . next text =>
        dsimp only at h ⊢
        cases ht : Reference.ofText? text with
        | none => rfl
        | some target =>
          simp only [ht] at h ⊢
          split
          . rfl
          . next hc =>
            rw [if_neg hc, List.forall_mem_cons] at h
            -- Both fetch the same; what is in there is followed with the spelling in the chain of both.
            rw [find?_congr h.1]
            cases hf : defs.find? target with
            | none => rfl
            | some fetched =>
              simp only [hf] at h ⊢
              apply Schema.inline_eq_of_asked
              intro next hn
              rcases Schema.meets_of_mem_asked hn with ⟨nested, hw, hr⟩
              have hfetch : defs.fetch? (.string text) = some fetched := (fetch?_eq_find? ht).trans hf
              have hpush := hroom.push (by simpa using hc) (hk _ (spelling?_of_ofText? ht))
              apply ih hpush (Nat.le_of_succ_le_succ hl) (known_of_fetched hroom.all hfetch hw hr)
              intro name hm
              exact h.2 name (List.mem_flatMap.mpr ⟨next, hn, hm⟩)
      . rfl

def Followed (defs : Definitions) (chain : List String) (schema : Json) : Prop :=
  ∀ spelling ∈ chain, ∃ reference fetched, spelling? reference = some spelling ∧
    defs.fetch? reference = some fetched ∧ defs.Reaches fetched schema

theorem Followed.push (h : defs.Followed chain schema) (hr : schema.get? "$ref" = some reference)
    (hs : spelling? reference = some spelling) (hf : defs.fetch? reference = some fetched)
    (hw : Schema.Within fetched nested) : defs.Followed (chain ++ [spelling]) nested := by
  intro last hl
  rcases List.mem_append.mp hl with hl | hl
  . rcases h last hl with ⟨first, start, hs', hf', hp⟩
    refine ⟨first, start, hs', hf', ?_⟩
    exact (hp.tail (.inr ⟨reference, hr, hf⟩)).trans (Reaches.of_within hw)
  . cases List.mem_singleton.mp hl
    exact ⟨reference, fetched, hs, hf, .of_within hw⟩

theorem Followed.cyclic (h : defs.Followed chain schema) (hr : schema.get? "$ref" = some reference)
    (hs : spelling? reference = some spelling) (hc : spelling ∈ chain) : defs.Cyclic schema := by
  rcases h spelling hc with ⟨first, fetched, hs', hf, hp⟩
  -- Two references with one spelling lead to the same place.
  rw [fetch?_eq_of_spelling? hs' hs] at hf
  exact ⟨schema, .refl, .head' (.inr ⟨reference, hr, hf⟩) hp⟩

theorem expand_eq_error (h : Room defs pool limit chain) (hk : Known pool reference)
    (hp : defs.Followed chain schema) (hr : schema.get? "$ref" = some reference)
    (he : defs.expand limit chain reference = .error e) : defs.Cyclic schema ∨ defs.Dangling schema := by
  induction limit generalizing chain schema reference with
  | zero => exact absurd h.limit_pos (by simp)
  | succ limit ih =>
    rcases defs.expand_cases chain reference with
      ⟨hf, _⟩ | ⟨spelling, fetched, hs, hf, ⟨hc, _⟩ | ⟨hc, heq⟩⟩
    . exact .inr ⟨schema, reference, .refl, hr, hf⟩
    . exact .inl (hp.cyclic hr hs hc)
    . -- The error comes from further inside, where the chain has led to as well.
      rw [heq] at he
      rcases Schema.inline_eq_error he with ⟨nested, next, hw, hn, he⟩
      have hreach : defs.Reaches schema nested := .head (.inr ⟨reference, hr, hf⟩) (Reaches.of_within hw)
      have hroom := h.push hc (hk spelling hs)
      rcases ih hroom (known_of_fetched h.all hf hw hn) (hp.push hr hs hf hw) hn he with hc | hd
      . exact .inl (hc.of_reaches hreach)
      . exact .inr (hd.of_reaches hreach)

/-- The spellings that can occur when a reference outside of the definitions is followed. -/
def pool (defs : Definitions) (reference : Json) : List String :=
  (spelling? reference).toList ++ defs.spellings

theorem room_pool (defs : Definitions) (reference : Json) (h : defs.depthLimit < limit) :
    Room defs (defs.pool reference) limit [] where
  nodup := List.nodup_nil
  subset := List.nil_subset _
  all := List.subset_append_right _ _
  enough := by
    have hl := defs.length_spellings_lt
    have hs : (spelling? reference).toList.length ≤ 1 := by
      cases spelling? reference <;> simp
    simp only [pool, List.length_append, List.length_nil]
    omega

theorem known_pool (defs : Definitions) (reference : Json) : Known (defs.pool reference) reference := by
  intro spelling h
  simp [pool, h]

theorem inline_expand_of_le (h : defs.depthLimit < limit) (hl : limit ≤ bound) (schema : Json) :
    Schema.inline (defs.expand bound []) schema = Schema.inline (defs.expand limit []) schema := by
  apply Schema.inline_eq_of_asked
  intro reference _
  exact expand_eq_of_lookups (defs.room_pool reference h) hl (defs.known_pool reference) fun _ _ => rfl

theorem inline_expand_limit (h : defs.depthLimit < limit) (h' : defs.depthLimit < limit') (schema : Json) :
    Schema.inline (defs.expand limit []) schema = Schema.inline (defs.expand limit' []) schema := by
  rw [← inline_expand_of_le h (Nat.le_max_left limit limit'), inline_expand_of_le h' (Nat.le_max_right limit limit')]

theorem inline_expand_eq_error (h : defs.depthLimit < limit)
    (he : Schema.inline (defs.expand limit []) schema = .error e) :
    defs.Cyclic schema ∨ defs.Dangling schema := by
  rcases Schema.inline_eq_error he with ⟨nested, reference, hw, hr, he⟩
  have hp : defs.Followed [] nested := by
    intro spelling hs
    cases hs
  rcases expand_eq_error (defs.room_pool reference h) (defs.known_pool reference) hp hr he with hc | hd
  . exact .inl (hc.of_reaches (.of_within hw))
  . exact .inr (hd.of_reaches (.of_within hw))

end Definitions

end Turnstile
