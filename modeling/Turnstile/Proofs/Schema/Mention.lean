import Turnstile.Proofs.Schema.Reach

/-!
This module contains the references that schemas mention. The strings among them are those that are listed for
a schema, and a schema that mentions none is left as it is when references are replaced.
-/

namespace Turnstile

theorem Json.string?_eq_some_iff {value : Json} : value.string? = some text ↔ value = .string text := by
  cases value <;> simp [string?]

namespace Schema

/-- At one of the places of the schema, `$ref` has the given value. -/
def Mentions (schema reference : Json) : Prop :=
  ∃ members, Within schema (.object members) ∧ ("$ref", reference) ∈ members

theorem Mentions.of_within (hw : Within schema nested) (h : Mentions nested reference) :
    Mentions schema reference := by
  rcases h with ⟨members, hm, hr⟩
  exact ⟨members, hw.trans hm, hr⟩

theorem Meets.mentions (h : Meets schema reference) : Mentions schema reference := by
  rcases h with ⟨nested, hw, hr⟩
  unfold Json.get? at hr
  split at hr
  . next members =>
    rcases List.lookup_eq_some_iff.mp hr with ⟨before, behind, hm, _⟩
    exact ⟨members, hw, by simp [hm]⟩
  . cases hr

/-! ## The list of references -/

mutual

theorem mentions_of_mem_refs (h : text ∈ refs schema) : Mentions schema (.string text) := by
  match schema with
  | .object members =>
    rcases among_of_mem_memberRefs h with hr | ⟨nested, ha, hn⟩
    . exact ⟨members, .refl, hr⟩
    . exact hn.of_within (.single ha.below)
  | .null | .bool _ | .number _ | .string _ | .list _ => cases h

theorem among_of_mem_memberRefs (h : text ∈ memberRefs members) :
    ("$ref", .string text) ∈ members ∨ ∃ nested, Among members nested ∧ Mentions nested (.string text) := by
  match members with
  | [] => cases h
  | (key, value) :: rest =>
    unfold memberRefs at h
    rcases List.mem_append.mp h with h | h
    . split at h
      . next hk =>
        rw [Option.mem_toList, Json.string?_eq_some_iff] at h
        rw [hk, h]
        exact .inl (.head _)
      . next hk =>
        rcases holds_of_mem_valueRefs h with ⟨hd, nested, hi, hn⟩
        exact .inr ⟨nested, ⟨key, value, .head _, hk, hd, hi⟩, hn⟩
    . rcases among_of_mem_memberRefs h with hr | ⟨nested, ha, hn⟩
      . exact .inl (.tail _ hr)
      . exact .inr ⟨nested, ha.tail, hn⟩

theorem holds_of_mem_valueRefs (h : text ∈ valueRefs key value) :
    key ∉ dataKeywords ∧ ∃ nested, Holds key value nested ∧ Mentions nested (.string text) := by
  match value with
  | .object entries =>
    unfold valueRefs at h
    split at h
    . cases h
    . next hd =>
      refine ⟨by simpa using hd, ?_⟩
      split at h
      . next hm =>
        rcases mentions_of_mem_entryRefs h with ⟨name, schema, hs, hn⟩
        exact ⟨schema, .named (by simpa using hm) hs, hn⟩
      . next hm =>
        refine ⟨_, .schema rfl (fun _ => by simpa using hm), ?_⟩
        rcases among_of_mem_memberRefs h with hr | ⟨nested, ha, hn⟩
        . exact ⟨entries, .refl, hr⟩
        . exact hn.of_within (.single ha.below)
  | .list items =>
    unfold valueRefs at h
    split at h
    . cases h
    . next hd =>
      rcases mentions_of_mem_itemRefs h with ⟨schema, hs, hn⟩
      exact ⟨by simpa using hd, schema, .item hs, hn⟩
  | .null | .bool _ | .number _ | .string _ => cases h

theorem mentions_of_mem_entryRefs (h : text ∈ entryRefs entries) :
    ∃ name schema, (name, schema) ∈ entries ∧ Mentions schema (.string text) := by
  match entries with
  | [] => cases h
  | (name, schema) :: rest =>
    unfold entryRefs at h
    rcases List.mem_append.mp h with h | h
    . exact ⟨name, schema, .head _, mentions_of_mem_refs h⟩
    . rcases mentions_of_mem_entryRefs h with ⟨other, nested, hm, hn⟩
      exact ⟨other, nested, .tail _ hm, hn⟩

theorem mentions_of_mem_itemRefs (h : text ∈ itemRefs items) :
    ∃ schema ∈ items, Mentions schema (.string text) := by
  match items with
  | [] => cases h
  | schema :: rest =>
    unfold itemRefs at h
    rcases List.mem_append.mp h with h | h
    . exact ⟨schema, .head _, mentions_of_mem_refs h⟩
    . rcases mentions_of_mem_itemRefs h with ⟨nested, hm, hn⟩
      exact ⟨nested, .tail _ hm, hn⟩

end

theorem mem_memberRefs_of_mem (h : ("$ref", .string text) ∈ members) : text ∈ memberRefs members := by
  induction members with
  | nil => cases h
  | cons member rest ih =>
    unfold memberRefs
    cases h with
    | head => simp [Json.string?]
    | tail _ h => exact List.mem_append_right _ (ih h)

theorem valueRefs_subset_of_mem (h : (key, value) ∈ members) (hk : key ≠ "$ref") :
    valueRefs key value ⊆ memberRefs members := by
  induction members with
  | nil => cases h
  | cons member rest ih =>
    unfold memberRefs
    cases h with
    | head =>
      rw [if_neg hk]
      apply List.subset_append_left
    | tail _ h => exact List.subset_append_of_subset_right _ (ih h)

theorem refs_subset_of_entry (h : (name, schema) ∈ entries) : refs schema ⊆ entryRefs entries := by
  induction entries with
  | nil => cases h
  | cons entry rest ih =>
    cases h with
    | head => exact List.subset_append_left _ _
    | tail _ h => exact List.subset_append_of_subset_right _ (ih h)

theorem refs_subset_of_item (h : schema ∈ items) : refs schema ⊆ itemRefs items := by
  induction h with
  | head => exact List.subset_append_left _ _
  | tail _ _ ih => exact List.subset_append_of_subset_right _ ih

theorem Holds.refs_subset (h : Holds key value nested) (hd : key ∉ dataKeywords) :
    refs nested ⊆ valueRefs key value := by
  cases h with
  | named hk hm => simpa [valueRefs, hd, hk] using refs_subset_of_entry hm
  | item hm => simpa [valueRefs, hd] using refs_subset_of_item hm
  | schema hl hk =>
    cases value with
    | object members => simp [valueRefs, refs, hd, hk rfl]
    | list items => cases hl
    | _ => simp [refs]

theorem Within.refs_subset (h : Within outer nested) : refs nested ⊆ refs outer := by
  induction h with
  | refl => exact List.Subset.refl _
  | tail _ hb ih =>
    rcases hb with ⟨members, rfl, key, value, hm, hk, hd, hi⟩
    apply List.Subset.trans _ ih
    exact List.Subset.trans (hi.refs_subset hd) (valueRefs_subset_of_mem hm hk)

theorem mem_refs_iff (schema : Json) (text : String) : text ∈ refs schema ↔ Mentions schema (.string text) := by
  constructor
  . exact mentions_of_mem_refs
  . intro h
    rcases h with ⟨members, hw, hr⟩
    exact hw.refs_subset (mem_memberRefs_of_mem hr)

/-! ## Schemas without references -/

def Plain (schema : Json) : Prop :=
  ∀ reference, ¬ Mentions schema reference

theorem Plain.below (h : Plain schema) (hb : Below schema nested) : Plain nested := by
  intro reference hn
  exact h reference (hn.of_within (.single hb))

theorem Plain.not_mem (h : Plain (.object members)) : ∀ member ∈ members, member.1 ≠ "$ref" := by
  rintro ⟨key, value⟩ hm rfl
  exact h value ⟨members, .refl, hm⟩

variable {expand : Json → Except SchemaError Json}

theorem Plain.join (h : Plain (.object members)) : join expand members (.ok members) = .ok (.object members) := by
  have hr : members.lookup "$ref" = none := by
    rw [List.lookup_eq_none_iff]
    intro member hm
    simpa using (h.not_mem member hm).symm
  unfold Schema.join
  rw [hr]
  rfl

mutual

theorem inline_of_plain (h : Plain schema) : inline expand schema = .ok schema := by
  match schema with
  | .object members =>
    unfold inline
    rw [inlineMembers_of_plain h.not_mem (fun _ ha => h.below ha.below)]
    exact h.join
  | .null | .bool _ | .number _ | .string _ | .list _ => rfl

theorem inlineMembers_of_plain (hr : ∀ member ∈ members, member.1 ≠ "$ref")
    (h : ∀ nested, Among members nested → Plain nested) : inlineMembers expand members = .ok members := by
  match members with
  | [] => rfl
  | (key, value) :: rest =>
    rw [List.forall_mem_cons] at hr
    unfold inlineMembers
    rw [if_neg hr.1, inlineMembers_of_plain hr.2 (fun _ ha => h _ ha.tail),
      inlineValue_of_plain (fun hd nested hi => h nested ⟨key, value, .head _, hr.1, hd, hi⟩)]
    rfl

theorem inlineValue_of_plain (h : key ∉ dataKeywords → ∀ nested, Holds key value nested → Plain nested) :
    inlineValue expand key value = .ok value := by
  match value with
  | .object entries =>
    unfold inlineValue
    split
    . rfl
    . next hd =>
      replace h := h (by simpa using hd)
      split
      . next hm =>
        rw [inlineEntries_of_plain (fun name schema hs => h schema (.named (by simpa using hm) hs))]
        rfl
      . next hm =>
        have h := h _ (.schema rfl (fun _ => by simpa using hm))
        rw [inlineMembers_of_plain h.not_mem (fun _ ha => h.below ha.below)]
        exact h.join
  | .list items =>
    unfold inlineValue
    split
    . rfl
    . next hd =>
      rw [inlineItems_of_plain (fun schema hs => h (by simpa using hd) schema (.item hs))]
      rfl
  | .null | .bool _ | .number _ | .string _ => rfl

theorem inlineEntries_of_plain (h : ∀ name schema, (name, schema) ∈ entries → Plain schema) :
    inlineEntries expand entries = .ok entries := by
  match entries with
  | [] => rfl
  | (name, schema) :: rest =>
    unfold inlineEntries
    rw [inline_of_plain (h name schema (.head _)),
      inlineEntries_of_plain (fun name schema hs => h name schema (.tail _ hs))]
    rfl

theorem inlineItems_of_plain (h : ∀ schema ∈ items, Plain schema) : inlineItems expand items = .ok items := by
  match items with
  | [] => rfl
  | schema :: rest =>
    unfold inlineItems
    rw [inline_of_plain (h schema (.head _)), inlineItems_of_plain (fun schema hs => h schema (.tail _ hs))]
    rfl

end

/-- Data stand in an inlined object as they stood before. -/
theorem lookup_of_inlineMembers (h : inlineMembers expand members = .ok expanded) (hk : key ∈ dataKeywords) :
    expanded.lookup key = members.lookup key := by
  have hr : key ≠ "$ref" := by
    rintro rfl
    exact absurd hk (by decide)
  induction members generalizing expanded with
  | nil =>
    cases h
    rfl
  | cons member rest ih =>
    rcases member with ⟨name, value⟩
    unfold inlineMembers at h
    split at h
    . next hn =>
      rw [ih h, List.lookup_cons, hn, beq_false_of_ne hr]
    . rcases bind_eq_ok h with ⟨inlined, hi, h⟩
      rcases bind_eq_ok h with ⟨others, ho, h⟩
      cases h
      rw [List.lookup_cons, List.lookup_cons, ih ho]
      split
      . next hn =>
        have hd : inlineValue expand name value = .ok value := by
          rw [← beq_iff_eq.mp hn]
          apply inlineValue_of_plain
          intro hd
          exact absurd hk hd
        cases hd.symm.trans hi
        rfl
      . rfl

end Schema

end Turnstile
