import Turnstile.Json.Written
import Turnstile.Proofs.Table

/-!
This module contains the order of the members of objects. The values of `Json.normalize` have their members
in the order of their keys, so that two objects are the same as soon as they have the same value under each
key.
-/

namespace Turnstile

namespace Json

def Sorted (members : List (String × Json)) : Prop :=
  members.Pairwise fun a b => a.1 < b.1

variable {members : List (String × Json)} {items : List Json}

theorem Sorted.nodup (h : Sorted members) : (members.map Prod.fst).Nodup := by
  apply List.pairwise_map.mpr
  apply List.Pairwise.imp _ h
  intro a b hl he
  rw [he] at hl
  exact String.lt_irrefl _ hl

theorem mem_addMember (h : entry ∈ addMember key value members) : entry = (key, value) ∨ entry ∈ members := by
  induction members with
  | nil => simpa [addMember] using h
  | cons first rest ih =>
    unfold addMember at h
    grind

theorem Sorted.addMember (h : Sorted members) : Sorted (addMember key value members) := by
  induction members with
  | nil => simp [Json.addMember, Sorted]
  | cons first rest ih =>
    rcases List.pairwise_cons.mp h with ⟨hf, hr⟩
    unfold Json.addMember
    split
    . next hk =>
      apply List.pairwise_cons.mpr
      refine ⟨?_, h⟩
      intro entry he
      rcases List.mem_cons.mp he with he | he
      . simpa [he] using hk
      . exact String.lt_trans hk (hf entry he)
    . next hk =>
      split
      . exact h
      . next hn =>
        apply List.pairwise_cons.mpr
        refine ⟨?_, ih hr⟩
        intro entry he
        rcases mem_addMember he with he | he
        . subst he
          have := Std.lt_trichotomy key first.1
          grind
        . exact hf entry he

theorem lookup_addMember (h : Sorted members) (name : String) :
    (Json.addMember key value members).lookup name =
      (members.lookup name).or (if name = key then some value else none) := by
  induction members with
  | nil => grind [Json.addMember]
  | cons first rest ih =>
    rcases List.pairwise_cons.mp h with ⟨hf, hr⟩
    have hn : ∀ key, key < first.1 → rest.lookup key = none := by
      intro key hk
      apply List.lookup_eq_none_iff.mpr
      intro entry he
      have := hf entry he
      grind
    unfold Json.addMember
    split
    . grind
    . split
      . grind
      . rw [List.lookup_cons, List.lookup_cons, ih hr]
        split <;> simp

theorem Sorted.ext {others : List (String × Json)} (h : Sorted members) (ho : Sorted others)
    (he : ∀ name, members.lookup name = others.lookup name) : members = others := by
  have hp : members.Perm others := by
    apply (List.perm_ext_iff_of_nodup h.nodup.of_map ho.nodup.of_map).mpr
    intro (name, value)
    rw [← Table.lookup_eq_some_iff_mem h.nodup, ← Table.lookup_eq_some_iff_mem ho.nodup, he]
  have ha : ∀ a b, a ∈ members → b ∈ others → a.1 < b.1 → b.1 < a.1 → a = b := by
    intro a b _ _ hab hba
    exact absurd (String.lt_trans hab hba) (String.lt_irrefl _)
  exact hp.eq_of_pairwise ha h ho

/-! ## Normal values -/

theorem sorted_normalizeMembers (members : List (String × Json)) : Sorted (normalizeMembers members) := by
  induction members with
  | nil => exact .nil
  | cons first rest ih => exact ih.addMember

theorem exists_key_of_mem_normalizeMembers (h : entry ∈ normalizeMembers members) :
    ∃ member ∈ members, member.1 = entry.1 := by
  induction members with
  | nil => cases h
  | cons first rest ih =>
    rcases mem_addMember h with he | he
    . exact ⟨first, .head _, he ▸ rfl⟩
    . rcases ih he with ⟨member, hm, hn⟩
      exact ⟨member, .tail _ hm, hn⟩

theorem lookup_normalizeMembers (members : List (String × Json)) (name : String) :
    (normalizeMembers members).lookup name = (members.reverse.lookup name).map normalize := by
  induction members with
  | nil => rfl
  | cons first rest ih =>
    unfold normalizeMembers
    rw [lookup_addMember (sorted_normalizeMembers rest), ih, List.reverse_cons, List.lookup_append]
    cases rest.reverse.lookup name with
    | some value => simp
    | none =>
      rcases first with ⟨key, value⟩
      by_cases hn : name = key
      . simp [hn]
      . simp [hn, List.lookup_cons, beq_false_of_ne hn]

theorem normalizeMembers_of_sorted (h : Sorted members)
    (hv : ∀ entry ∈ members, entry.2.normalize = entry.2) : normalizeMembers members = members := by
  induction members with
  | nil => rfl
  | cons first rest ih =>
    rcases List.pairwise_cons.mp h with ⟨hf, hr⟩
    rw [List.forall_mem_cons] at hv
    unfold normalizeMembers
    rw [ih hr hv.2, hv.1]
    cases rest with
    | nil => rfl
    | cons second others =>
      unfold addMember
      rw [if_pos (hf second (.head _))]

mutual

theorem normalize_normalize : (v : Json) → v.normalize.normalize = v.normalize
  | .null | .bool _ | .number _ | .string _ => rfl
  | .list items => congrArg list (normalizeList_normalizeList items)
  | .object members =>
    congrArg object
      (normalizeMembers_of_sorted (sorted_normalizeMembers members) (normalize_of_mem_normalizeMembers members))

theorem normalizeList_normalizeList :
    (items : List Json) → normalizeList (normalizeList items) = normalizeList items
  | [] => rfl
  | item :: rest => congrArg₂ List.cons (normalize_normalize item) (normalizeList_normalizeList rest)

theorem normalize_of_mem_normalizeMembers : (members : List (String × Json)) →
    ∀ entry ∈ normalizeMembers members, entry.2.normalize = entry.2
  | [] => by simp [normalizeMembers]
  | (key, value) :: rest => by
    intro entry he
    rcases mem_addMember he with he | he
    . rw [he]
      exact normalize_normalize value
    . exact normalize_of_mem_normalizeMembers rest entry he

end

theorem normalizeMembers_normalizeMembers (members : List (String × Json)) :
    normalizeMembers (normalizeMembers members) = normalizeMembers members := by
  apply normalizeMembers_of_sorted (sorted_normalizeMembers members)
  apply normalize_of_mem_normalizeMembers

theorem normalizeMembers_eq_self (h : (object members).normalize = object members) :
    normalizeMembers members = members := by
  unfold normalize at h
  injection h

theorem sorted_of_normalize (h : (object members).normalize = object members) : Sorted members := by
  rw [← normalizeMembers_eq_self h]
  apply sorted_normalizeMembers

theorem normalize_of_mem_object (h : (object members).normalize = object members) :
    ∀ entry ∈ members, entry.2.normalize = entry.2 := by
  rw [← normalizeMembers_eq_self h]
  apply normalize_of_mem_normalizeMembers

theorem normalizeList_eq_map (items : List Json) : normalizeList items = items.map normalize := by
  induction items with
  | nil => rfl
  | cons first rest ih => simp [normalizeList, ih]

theorem normalize_of_mem_list (h : (list items).normalize = list items) :
    ∀ item ∈ items, item.normalize = item := by
  unfold normalize at h
  injection h with h
  rw [normalizeList_eq_map] at h
  apply List.map_inj_left.mp
  rw [h, List.map_id']

/-! ## Written values -/

mutual

@[simp]
theorem json?_written : (v : Json) → v.written.json? = some v
  | .null | .bool _ | .number _ | .string _ => rfl
  | .list items => by
    unfold written Written.json?
    rw [jsonItems?_writtenItems items]
    rfl
  | .object members => by
    unfold written Written.json?
    rw [jsonMembers?_writtenMembers members]
    rfl

theorem jsonItems?_writtenItems : (items : List Json) → Written.jsonItems? (writtenItems items) = some items
  | [] => rfl
  | item :: rest => by
    unfold writtenItems Written.jsonItems?
    rw [json?_written item, jsonItems?_writtenItems rest]
    rfl

theorem jsonMembers?_writtenMembers :
    (members : List (String × Json)) → Written.jsonMembers? (writtenMembers members) = some members
  | [] => rfl
  | (key, value) :: rest => by
    unfold writtenMembers Written.jsonMembers?
    rw [json?_written value, jsonMembers?_writtenMembers rest]
    rfl

end

mutual

@[simp]
theorem isComplete_written : (v : Json) → v.written.isComplete
  | .null | .bool _ | .number _ | .string _ => rfl
  | .list items => areComplete_writtenItems items
  | .object members => haveComplete_writtenMembers members

theorem areComplete_writtenItems : (items : List Json) → Written.areComplete (writtenItems items)
  | [] => rfl
  | item :: rest => by
    unfold writtenItems Written.areComplete
    rw [isComplete_written item, areComplete_writtenItems rest]
    rfl

theorem haveComplete_writtenMembers :
    (members : List (String × Json)) → Written.haveComplete (writtenMembers members)
  | [] => rfl
  | (key, value) :: rest => by
    unfold writtenMembers Written.haveComplete
    rw [isComplete_written value, haveComplete_writtenMembers rest]
    rfl

end

theorem writtenItems_eq_map (items : List Json) : writtenItems items = items.map written := by
  induction items with
  | nil => rfl
  | cons item rest ih => simp [writtenItems, ih]

theorem writtenMembers_eq_map (members : List (String × Json)) :
    writtenMembers members = members.map fun (key, value) => (some key, value.written) := by
  induction members with
  | nil => rfl
  | cons member rest ih => simp [writtenMembers, ih]

end Json

end Turnstile
