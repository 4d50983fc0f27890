import Turnstile.Proofs.Schema.Reach

/-!
This module contains the references that are asked for while a schema is inlined. The result depends on nothing
else, and each of them stands at a place of the schema.
-/

namespace Turnstile

namespace Schema

section

variable (expand : Json → Except SchemaError Json)

/-- What comes after a computation, if it does not fail. -/
def afterwards (x : Except SchemaError α) (rest : List Json) : List Json :=
  match x with
  | .ok _ => rest
  | .error _ => []

/-- A reference is expanded before its siblings are gone through. -/
def askedFirst (members : List (String × Json)) (siblings : List Json) : List Json :=
  match members.lookup "$ref" with
  | none => siblings
  | some reference => reference :: afterwards (expand reference) siblings

mutual

/-- The references that are expanded to inline a schema, in their order. With the first one that fails it ends. -/
def asked : Json → List Json
  | .object members => askedFirst expand members (askedMembers members)
  | _ => []

def askedMembers : List (String × Json) → List Json
  | [] => []
  | (key, value) :: rest =>
    if key = "$ref" then askedMembers rest
    else askedValue key value ++ afterwards (inlineValue expand key value) (askedMembers rest)

def askedValue (key : String) : Json → List Json
  | .object entries =>
    if dataKeywords.contains key then []
    else if mapKeywords.contains key then askedEntries entries
    else askedFirst expand entries (askedMembers entries)
  | .list items => if dataKeywords.contains key then [] else askedItems items
  | _ => []

def askedEntries : List (String × Json) → List Json
  | [] => []
  | (_, schema) :: rest => asked schema ++ afterwards (inline expand schema) (askedEntries rest)

def askedItems : List Json → List Json
  | [] => []
  | schema :: rest => asked schema ++ afterwards (inline expand schema) (askedItems rest)

end

end

variable {expand other : Json → Except SchemaError Json} {later : List Json}

/-- On the references that are asked for, both give the same. -/
def AlikeOn (expand other : Json → Except SchemaError Json) (references : List Json) : Prop :=
  ∀ reference ∈ references, other reference = expand reference

theorem alikeOn_append_iff (first second : List Json) :
    AlikeOn expand other (first ++ second) ↔ AlikeOn expand other first ∧ AlikeOn expand other second :=
  List.forall_mem_append

theorem AlikeOn.of_ok (h : AlikeOn expand other (afterwards x later)) (hx : x = .ok a) :
    AlikeOn expand other later := by
  subst hx
  exact h

theorem join_eq_of_asked (h : AlikeOn expand other (askedFirst expand members later))
    (hs : AlikeOn expand other later → siblings' = siblings) :
    join other members siblings' = join expand members siblings := by
  unfold askedFirst at h
  unfold join
  cases hr : members.lookup "$ref" with
  | none =>
    rw [hr] at h
    rw [hs h]
  | some reference =>
    rw [hr] at h
    rcases List.forall_mem_cons.mp h with ⟨hf, hl⟩
    dsimp only
    rw [hf]
    apply bind_congr_of_ok
    intro target ht
    rw [hs (AlikeOn.of_ok hl ht)]

mutual

theorem inline_eq_of_asked (h : AlikeOn expand other (asked expand schema)) :
    inline other schema = inline expand schema := by
  match schema with
  | .object members =>
    exact join_eq_of_asked h inlineMembers_eq_of_asked
  | .null | .bool _ | .number _ | .string _ | .list _ => rfl

theorem inlineMembers_eq_of_asked (h : AlikeOn expand other (askedMembers expand members)) :
    inlineMembers other members = inlineMembers expand members := by
  match members with
  | [] => rfl
  | (key, value) :: rest =>
    unfold askedMembers at h
    unfold inlineMembers
    split at h
    . next hk =>
      rw [if_pos hk, if_pos hk, inlineMembers_eq_of_asked h]
    . next hk =>
      rw [alikeOn_append_iff] at h
      rw [if_neg hk, if_neg hk, inlineValue_eq_of_asked h.1]
      apply bind_congr_of_ok
      intro inlined hi
      rw [inlineMembers_eq_of_asked (h.2.of_ok hi)]

theorem inlineValue_eq_of_asked (h : AlikeOn expand other (askedValue expand key value)) :
    inlineValue other key value = inlineValue expand key value := by
  match value with
  | .object entries =>
    unfold askedValue at h
    unfold inlineValue
    split
    . rfl
    . next hd =>
      rw [if_neg hd] at h
      split
      . next hm =>
        rw [if_pos hm] at h
        rw [inlineEntries_eq_of_asked h]
      . next hm =>
        rw [if_neg hm] at h
        exact join_eq_of_asked h inlineMembers_eq_of_asked
  | .list items =>
    unfold askedValue at h
    unfold inlineValue
    split
    . rfl
    . next hd =>
      rw [if_neg hd] at h
      rw [inlineItems_eq_of_asked h]
  | .null | .bool _ | .number _ | .string _ => rfl

theorem inlineEntries_eq_of_asked (h : AlikeOn expand other (askedEntries expand entries)) :
    inlineEntries other entries = inlineEntries expand entries := by
  match entries with
  | [] => rfl
  | (name, schema) :: rest =>
    unfold askedEntries at h
    rw [alikeOn_append_iff] at h
    unfold inlineEntries
    rw [inline_eq_of_asked h.1]
    apply bind_congr_of_ok
    intro inlined hi
    rw [inlineEntries_eq_of_asked (h.2.of_ok hi)]

theorem inlineItems_eq_of_asked (h : AlikeOn expand other (askedItems expand items)) :
    inlineItems other items = inlineItems expand items := by
  match items with
  | [] => rfl
  | schema :: rest =>
    unfold askedItems at h
    rw [alikeOn_append_iff] at h
    unfold inlineItems
    rw [inline_eq_of_asked h.1]
    apply bind_congr_of_ok
    intro inlined hi
    rw [inlineItems_eq_of_asked (h.2.of_ok hi)]

end

theorem mem_of_mem_afterwards (h : reference ∈ afterwards x later) : reference ∈ later := by
  unfold afterwards at h
  split at h
  . exact h
  . cases h

theorem mem_askedFirst (h : reference ∈ askedFirst expand members later) :
    members.lookup "$ref" = some reference ∨ reference ∈ later := by
  unfold askedFirst at h
  split at h
  . exact .inr h
  . next hr =>
    rcases List.mem_cons.mp h with rfl | h
    . exact .inl hr
    . exact .inr (mem_of_mem_afterwards h)

mutual

theorem meets_of_mem_asked (h : reference ∈ asked expand schema) : Meets schema reference := by
  match schema with
  | .object members =>
    rcases mem_askedFirst h with hr | hl
    . exact ⟨_, .refl, hr⟩
    . rcases among_of_mem_askedMembers hl with ⟨nested, ha, hn⟩
      exact hn.of_within (.single ha.below)
  | .null | .bool _ | .number _ | .string _ | .list _ => cases h

theorem among_of_mem_askedMembers (h : reference ∈ askedMembers expand members) :
    ∃ nested, Among members nested ∧ Meets nested reference := by
  match members with
  | [] => cases h
  | (key, value) :: rest =>
    unfold askedMembers at h
    split at h
    . rcases among_of_mem_askedMembers h with ⟨nested, ha, hn⟩
      exact ⟨nested, ha.tail, hn⟩
    . next hk =>
      rcases List.mem_append.mp h with h | h
      . rcases holds_of_mem_askedValue h with ⟨hd, nested, hi, hn⟩
        exact ⟨nested, ⟨key, value, .head _, hk, hd, hi⟩, hn⟩
      . rcases among_of_mem_askedMembers (mem_of_mem_afterwards h) with ⟨nested, ha, hn⟩
        exact ⟨nested, ha.tail, hn⟩

theorem holds_of_mem_askedValue (h : reference ∈ askedValue expand key value) :
    key ∉ dataKeywords ∧ ∃ nested, Holds key value nested ∧ Meets nested reference := by
  match value with
  | .object entries =>
    unfold askedValue at h
    split at h
    . cases h
    . next hd =>
      refine ⟨by simpa using hd, ?_⟩
      split at h
      . next hm =>
        rcases exists_of_mem_askedEntries h with ⟨name, schema, hs, hn⟩
        exact ⟨schema, .named (by simpa using hm) hs, hn⟩
      . next hm =>
        refine ⟨_, .schema rfl (fun _ => by simpa using hm), ?_⟩
        rcases mem_askedFirst h with hr | hl
        . exact ⟨_, .refl, hr⟩
        . rcases among_of_mem_askedMembers hl with ⟨nested, ha, hn⟩
          exact hn.of_within (.single ha.below)
  | .list items =>
    unfold askedValue at h
    split at h
    . cases h
    . next hd =>
      rcases exists_of_mem_askedItems h with ⟨schema, hs, hn⟩
      exact ⟨by simpa using hd, schema, .item hs, hn⟩
  | .null | .bool _ | .number _ | .string _ => cases h

theorem exists_of_mem_askedEntries (h : reference ∈ askedEntries expand entries) :
    ∃ name schema, (name, schema) ∈ entries ∧ Meets schema reference := by
  match entries with
  | [] => cases h
  | (name, schema) :: rest =>
    unfold askedEntries at h
    rcases List.mem_append.mp h with h | h
    . exact ⟨name, schema, .head _, meets_of_mem_asked h⟩
    . rcases exists_of_mem_askedEntries (mem_of_mem_afterwards h) with ⟨other, nested, hm, hn⟩
      exact ⟨other, nested, .tail _ hm, hn⟩

theorem exists_of_mem_askedItems (h : reference ∈ askedItems expand items) :
    ∃ schema ∈ items, Meets schema reference := by
  match items with
  | [] => cases h
  | schema :: rest =>
    unfold askedItems at h
    rcases List.mem_append.mp h with h | h
    . exact ⟨schema, .head _, meets_of_mem_asked h⟩
    . rcases exists_of_mem_askedItems (mem_of_mem_afterwards h) with ⟨nested, hm, hn⟩
      exact ⟨nested, .tail _ hm, hn⟩

end

end Schema

end Turnstile
