import Turnstile.Proofs.Schema.Resolution

/-!
This module contains the references that resolving leaves behind. The value of a keyword has its role
before a reference is followed: if nothing but references leads from a schema to a list, then the items
of the list stay as they are, and become schemas where the list is the value of a keyword.
-/

namespace Turnstile

namespace Definitions

open Schema

/-- Nothing but references leads from the value to the list of the given items. -/
inductive LeadsTo (defs : Definitions) (items : List Json) : Json → Prop where
  | list : LeadsTo defs items (.list items)
  | reference :
    members.lookup "$ref" = some reference → (∀ member ∈ members, member.1 = "$ref") →
      defs.fetch? reference = some fetched → LeadsTo defs items fetched →
      LeadsTo defs items (.object members)

/-- The value stands where a schema is expected, and leads to a list that holds references. -/
def LeaksAt (defs : Definitions) (key : String) (value : Json) : Prop :=
  key ∉ mapKeywords ∧ value.isObject ∧ ∃ items, defs.LeadsTo items value ∧ itemRefs items ≠ []

/-- A keyword of the schema keeps references that are not replaced. -/
def Leaks (defs : Definitions) (schema : Json) : Prop :=
  ∃ members key value, schema = .object members ∧ (key, value) ∈ members ∧ key ≠ "$ref" ∧
    key ∉ dataKeywords ∧ defs.LeaksAt key value

def Tight (defs : Definitions) (schema : Json) : Prop :=
  ∀ nested, defs.Reaches schema nested → ¬ defs.Leaks nested

variable {defs : Definitions}

theorem tight_iff (schema : Json) :
    defs.Tight schema ↔ ¬ defs.Leaks schema ∧ ∀ next, defs.Step schema next → defs.Tight next := by
  constructor
  . intro h
    refine ⟨h schema .refl, ?_⟩
    intro next hs nested hr
    exact h nested (.head hs hr)
  . intro h nested hr
    cases hr.cases_head with
    | inl hs =>
      subst hs
      exact h.1
    | inr hs =>
      rcases hs with ⟨next, hs, hr⟩
      exact h.2 next hs nested hr

theorem tight_of_not_isObject (h : schema.isObject = false) : defs.Tight schema := by
  rw [tight_iff]
  constructor
  . intro hl
    rcases hl with ⟨_, _, _, hm, _⟩
    subst hm
    cases h
  . intro next hs
    simp [hs.isObject] at h

def TightAt (defs : Definitions) (key : String) (value : Json) : Prop :=
  ¬ defs.LeaksAt key value ∧ ∀ nested, Holds key value nested → defs.Tight nested

def TightMembers (defs : Definitions) (members : List (String × Json)) : Prop :=
  ∀ key value, (key, value) ∈ members → key ≠ "$ref" → key ∉ dataKeywords → defs.TightAt key value

theorem tight_object_iff (members : List (String × Json)) :
    defs.Tight (.object members) ↔ defs.TightMembers members ∧
      ∀ reference fetched, members.lookup "$ref" = some reference →
        defs.fetch? reference = some fetched → defs.Tight fetched := by
  rw [tight_iff]
  constructor
  . intro h
    constructor
    . intro key value hm hk hd
      constructor
      . intro hl
        exact h.1 ⟨members, key, value, rfl, hm, hk, hd, hl⟩
      . intro nested hi
        exact h.2 nested (.inl ⟨members, rfl, key, value, hm, hk, hd, hi⟩)
    . intro reference fetched hr hf
      exact h.2 fetched (.inr ⟨reference, hr, hf⟩)
  . intro h
    constructor
    . intro hl
      rcases hl with ⟨_, key, value, hs, hm, hk, hd, hl⟩
      cases hs
      exact (h.1 key value hm hk hd).1 hl
    . intro next hs
      rcases hs with ⟨_, hs, key, value, hm, hk, hd, hi⟩ | ⟨reference, hr, hf⟩
      . cases hs
        exact (h.1 key value hm hk hd).2 next hi
      . exact h.2 reference next hr hf

theorem tight_keywords_iff (hr : members.lookup "$ref" = none) :
    defs.Tight (.object members) ↔ defs.TightMembers members := by
  rw [tight_object_iff]
  simp [hr]

theorem tight_reference_iff (hr : members.lookup "$ref" = some reference)
    (hf : defs.fetch? reference = some fetched) :
    defs.Tight (.object members) ↔ defs.TightMembers members ∧ defs.Tight fetched := by
  rw [tight_object_iff]
  constructor
  . intro h
    exact ⟨h.1, h.2 reference fetched hr hf⟩
  . intro h
    refine ⟨h.1, ?_⟩
    intro other next hr' hf'
    cases hr.symm.trans hr'
    cases hf.symm.trans hf'
    exact h.2

theorem tightMembers_cons_iff (key : String) (value : Json) (rest : List (String × Json)) :
    defs.TightMembers ((key, value) :: rest) ↔
      (key ≠ "$ref" → key ∉ dataKeywords → defs.TightAt key value) ∧ defs.TightMembers rest := by
  constructor
  . intro h
    constructor
    . intro hk hd
      exact h key value (.head _) hk hd
    . intro other part hm
      exact h other part (.tail _ hm)
  . intro h other part hm
    cases hm with
    | head => exact h.1
    | tail _ hm => exact h.2 other part hm

theorem tightAt_named_iff (hk : key ∈ mapKeywords) :
    defs.TightAt key (.object entries) ↔
      ∀ name schema, (name, schema) ∈ entries → defs.Tight schema := by
  constructor
  . intro h name schema hm
    exact h.2 schema (.named hk hm)
  . intro h
    constructor
    . intro hl
      exact hl.1 hk
    . intro nested hi
      cases hi with
      | named _ hm => exact h _ nested hm
      | schema _ hk' => exact absurd hk (hk' rfl)

theorem tightAt_items_iff (key : String) (items : List Json) :
    defs.TightAt key (.list items) ↔ ∀ schema ∈ items, defs.Tight schema := by
  constructor
  . intro h schema hm
    exact h.2 schema (.item hm)
  . intro h
    constructor
    . intro hl
      cases hl.2.1
    . intro nested hi
      cases hi with
      | item hm => exact h nested hm
      | schema hl => cases hl

theorem tightAt_schema_iff (hl : value.list? = none) (hk : value.isObject → key ∉ mapKeywords) :
    defs.TightAt key value ↔ ¬ defs.LeaksAt key value ∧ defs.Tight value := by
  constructor
  . intro h
    exact ⟨h.1, h.2 value (.schema hl hk)⟩
  . intro h
    refine ⟨h.1, ?_⟩
    intro nested hi
    cases hi with
    | named hm => exact absurd hm (hk rfl)
    | item => cases hl
    | schema => exact h.2

theorem expandsMembers_nil_iff (members : List (String × Json)) :
    defs.ExpandsMembers members [] ↔ ∀ member ∈ members, member.1 = "$ref" := by
  induction members with
  | nil =>
    simp only [List.not_mem_nil, false_implies, implies_true, iff_true]
    exact .nil
  | cons member rest ih =>
    rw [List.forall_mem_cons, ← ih]
    constructor
    . intro h
      cases h with
      | reference hm => exact ⟨rfl, hm⟩
    . intro h
      rcases member with ⟨key, value⟩
      cases h.1
      exact .reference h.2

theorem LeadsTo.expands (h : defs.LeadsTo items value) : defs.Expands value (.list items) := by
  induction h with
  | list => exact .atom rfl
  | reference hr hm hf _ ih => exact .reference hr hf ih ((expandsMembers_nil_iff _).mpr hm)

theorem Expands.leadsTo (h : defs.Expands value v) (hv : v = .list items) :
    defs.LeadsTo items value := by
  match h with
  | .atom _ =>
    subst hv
    exact .list
  | .reference hr hf ht hm =>
    exact .reference hr ((expandsMembers_nil_iff _).mp hm) hf (ht.leadsTo hv)
  | .keywords _ _ | .conjunction _ _ _ _ _ => cases hv
termination_by structural h

theorem Expands.leadsTo_iff (h : defs.Expands value v) : defs.LeadsTo items value ↔ v = .list items := by
  constructor
  . intro hl
    exact h.unique hl.expands
  . exact h.leadsTo

theorem Expands.leaksAt_iff (h : defs.Expands value v) (hl : value.list? = none)
    (hk : value.isObject → key ∉ mapKeywords) :
    defs.LeaksAt key value ↔ ∃ items, v = .list items ∧ itemRefs items ≠ [] := by
  constructor
  . intro hv
    rcases hv with ⟨_, _, items, hi, hn⟩
    exact ⟨items, h.leadsTo_iff.mp hi, hn⟩
  . intro hv
    rcases hv with ⟨items, hv, hn⟩
    cases ho : value.isObject with
    | true => exact ⟨hk ho, ho, items, h.leadsTo hv, hn⟩
    | false =>
      rw [← h.unique (.atom ho), hv] at hl
      cases hl

theorem Expands.valueRefs_eq_nil_iff (h : defs.Expands value v) (hd : key ∉ dataKeywords)
    (hl : value.list? = none) (hk : value.isObject → key ∉ mapKeywords) :
    valueRefs key v = [] ↔ ¬ defs.LeaksAt key value ∧ refs v = [] := by
  rw [h.leaksAt_iff hl hk]
  -- An expansion has a list in place of an object only where nothing but references led to the list.
  cases v with
  | list items => simp [valueRefs, refs, hd]
  | object members =>
    have hk : key ∉ mapKeywords := by
      apply hk
      cases ho : value.isObject with
      | true => rfl
      | false =>
        rw [← h.unique (.atom ho)] at ho
        cases ho
    simp [valueRefs, refs, hd, hk]
  | _ => simp [valueRefs, refs]

theorem valueRefs_data (hd : key ∈ dataKeywords) (value : Json) : valueRefs key value = [] := by
  unfold valueRefs
  split <;> simp [hd]

theorem refs_conjunction (target : Json) (siblings : List (String × Json)) :
    refs (.object [("allOf", .list [target, .object siblings])]) = refs target ++ memberRefs siblings := by
  simp [refs, memberRefs, valueRefs, itemRefs, dataKeywords]

mutual

theorem Expands.refs_eq_nil_iff (h : defs.Expands schema v) : refs v = [] ↔ defs.Tight schema := by
  match h with
  | .atom ho =>
    have : refs schema = [] := by
      unfold refs
      split
      . cases ho
      . rfl
    simp [this, tight_of_not_isObject ho]
  | .keywords hr hm =>
    rw [tight_keywords_iff hr, refs, hm.refs_eq_nil_iff]
  | .reference hr hf ht hm =>
    -- There is nothing besides the reference that could leak.
    rw [tight_reference_iff hr hf, ht.refs_eq_nil_iff, ← hm.refs_eq_nil_iff]
    simp [memberRefs]
  | .conjunction hr hf ht hm _ =>
    rw [tight_reference_iff hr hf, refs_conjunction, List.append_eq_nil_iff, ht.refs_eq_nil_iff,
      hm.refs_eq_nil_iff, and_comm]
termination_by structural h

theorem ExpandsMembers.refs_eq_nil_iff (h : defs.ExpandsMembers members expanded) :
    memberRefs expanded = [] ↔ defs.TightMembers members := by
  match h with
  | .nil =>
    simp [memberRefs, TightMembers]
  | .reference hm =>
    rw [tightMembers_cons_iff, ← hm.refs_eq_nil_iff]
    simp
  | .keyword hk hv hm =>
    unfold memberRefs
    rw [tightMembers_cons_iff, ← hm.refs_eq_nil_iff, if_neg hk, List.append_eq_nil_iff, hv.refs_eq_nil_iff]
    simp [hk]
termination_by structural h

theorem ExpandsValue.refs_eq_nil_iff (h : defs.ExpandsValue key value v) :
    valueRefs key v = [] ↔ (key ∉ dataKeywords → defs.TightAt key value) := by
  match h with
  | .data hd => simp [valueRefs_data hd, hd]
  | .named hd hk he =>
    rw [tightAt_named_iff hk, ← he.refs_eq_nil_iff]
    simp [valueRefs, hd, hk]
  | .items hd hi =>
    rw [tightAt_items_iff, ← hi.refs_eq_nil_iff]
    simp [valueRefs, hd]
  | .schema hd hl hk hs =>
    rw [hs.valueRefs_eq_nil_iff hd hl hk, tightAt_schema_iff hl hk, hs.refs_eq_nil_iff]
    simp [hd]
termination_by structural h

theorem ExpandsEntries.refs_eq_nil_iff (h : defs.ExpandsEntries entries expanded) :
    entryRefs expanded = [] ↔ ∀ name schema, (name, schema) ∈ entries → defs.Tight schema := by
  match h with
  | .nil => simp [entryRefs]
  | .entry hs hr =>
    unfold entryRefs
    rw [List.append_eq_nil_iff, hs.refs_eq_nil_iff, hr.refs_eq_nil_iff]
    grind
termination_by structural h

theorem ExpandsItems.refs_eq_nil_iff (h : defs.ExpandsItems items expanded) :
    itemRefs expanded = [] ↔ ∀ schema ∈ items, defs.Tight schema := by
  match h with
  | .nil => simp [itemRefs]
  | .item hs hr =>
    unfold itemRefs
    rw [List.append_eq_nil_iff, hs.refs_eq_nil_iff, hr.refs_eq_nil_iff, List.forall_mem_cons]
termination_by structural h

end

theorem refs_resolve_eq_nil_iff (h : defs.resolve schema = .ok v) :
    refs v = [] ↔ ∀ nested, (defs.scope schema).Reaches (body schema) nested →
      ¬ (defs.scope schema).Leaks nested := by
  have he := (resolve_eq_ok_iff defs schema v).mp h
  exact he.refs_eq_nil_iff

theorem refs_resolve_toolCalls :
    builtin.resolve (.object [("$ref", "tool-calls")]) = .ok (.object [("anyOf", .list [toolCall,
      .object [("items", toolCall), ("minItems", 1), ("type", "array")]])]) ∧
    ∀ nested, (builtin.scope (.object [("$ref", "tool-calls")])).Reaches
      (body (.object [("$ref", "tool-calls")])) nested →
      ¬ (builtin.scope (.object [("$ref", "tool-calls")])).Leaks nested := by
  constructor
  . rfl
  . apply (refs_resolve_eq_nil_iff (by rfl)).mp
    decide

theorem refs_resolve_list : ¬ ∀ (defs : Definitions) (schema v : Json),
    defs.resolve schema = .ok v → refs v = [] := by
  intro h
  have hr := h (.ofList [("t", text), ("u", .object [("anyOf", .list [.object [("$ref", "t")]])])])
    (.object [("anyOf", .object [("$ref", "#/$defs/u/anyOf")])])
    (.object [("anyOf", .list [.object [("$ref", "t")]])]) (by rfl)
  revert hr
  decide

end Definitions

end Turnstile
