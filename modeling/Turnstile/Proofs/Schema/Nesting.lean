import Turnstile.Proofs.Schema.Bare
import Turnstile.Proofs.Schema.Property

/-!
This module contains the way of schemas into other schemas. A schema without references is read inside of
another one as it is read on its own; so a choice of such schemas, and the schema of lists of them, accept
what their parts accept.
-/

namespace Turnstile

namespace Schema

/-- A schema of the latest draft that can be used on its own, and means the same inside of another one. -/
structure Portable (schema : Json) : Prop where
  draft : Draft.ofSchema? .latest schema = some .latest
  readable : ∃ s, read schema = .ok s
  bare : isBare schema

/-- A schema that can be put at any place of another one, where it is read as the given one. -/
structure Nests (schema : Json) (s : Subschema) : Prop where
  form : conforms .latest schema
  bare : isBare schema
  compile : ∀ refer, compile refer .latest schema = .ok s

theorem Portable.nests (h : Portable schema) (hs : read schema = .ok s) : Nests schema s := by
  unfold read at hs
  rw [h.draft] at hs
  dsimp only at hs
  split at hs
  . next hf =>
    refine ⟨hf, h.bare, ?_⟩
    intro refer
    rw [← hs]
    exact compile_congr h.bare
  . cases hs

variable {refer : String → Except String Subschema}

theorem valueBare_of_lookup (h : membersBare members) (hl : members.lookup key = some value) :
    valueBare key value := by
  induction members with
  | nil => cases hl
  | cons member rest ih =>
    unfold membersBare at h
    rw [Bool.and_eq_true, Bool.and_eq_true] at h
    rw [List.lookup_cons] at hl
    split at hl
    . next hk =>
      cases hl
      rw [beq_iff_eq.mp hk]
      exact h.1.2
    . exact ih h.2 hl

theorem Nests.property (h : Nests schema s) (hd : Draft.ofSchema? .latest schema = some .latest)
    (hp : (schema.get? "properties").bind Json.members? = some entries)
    (hl : entries.lookup name = some part) :
    ∃ t, Nests part t ∧ ∀ d value, s.accepts d → d.get? name = some value → t.accepts value := by
  rcases Option.bind_eq_some_iff.mp hp with ⟨properties, hg, he⟩
  have he : properties = .object entries := by
    unfold Json.members? at he
    split at he
    . cases he
      rfl
    . cases he
  subst he
  have hs : ∃ members, schema = .object members := by
    unfold Json.get? at hg
    split at hg
    . exact ⟨_, rfl⟩
    . cases hg
  rcases hs with ⟨members, hs⟩
  subst hs
  have hb : isBare part :=
    isBare_of_entriesBare (entriesBare_of_named (by decide) (valueBare_of_lookup h.bare hg)) _ (mem_of_lookup hl)
  -- What references lead to does not matter, so they may lead nowhere.
  have hr : UniformRefer fun _ => .error "" := by
    intro _ _ h
    cases h
  rcases compile_property hr (h.compile _) hd hg hl with ⟨t, ht, hv⟩
  refine ⟨t, ⟨conforms_property h.form hg (mem_of_lookup hl), hb, ?_⟩, hv⟩
  intro refer
  rw [← ht]
  exact compile_congr hb

theorem Nests.unique (h : Nests schema s) (ht : Nests schema t) : s = t := by
  have := (h.compile fun _ => .error "").symm.trans (ht.compile _)
  cases this
  rfl

theorem exists_compileItems (h : ∀ item ∈ items, ∃ s, Nests item s) :
    ∃ schemas, (∀ refer, compileItems refer .latest items = .ok schemas) ∧
      ∀ item ∈ items, ∀ s, Nests item s → s ∈ schemas := by
  induction items with
  | nil => exact ⟨[], fun _ => rfl, by simp⟩
  | cons item rest ih =>
    rw [List.forall_mem_cons] at h
    rcases h.1 with ⟨first, hf⟩
    rcases ih h.2 with ⟨schemas, hc, hm⟩
    refine ⟨first :: schemas, ?_, ?_⟩
    . intro refer
      unfold compileItems
      rw [hf.compile, hc]
      rfl
    . rw [List.forall_mem_cons]
      constructor
      . intro s hs
        cases hf.unique hs
        exact .head _
      . intro item hi s hs
        exact .tail _ (hm item hi s hs)

/-- Any one of the schemas. -/
def anyOf (schemas : List Json) : Json :=
  .object [("anyOf", .list schemas)]

theorem compile_anyOf (refer : String → Except String Subschema) (items : List Json) :
    ∃ coverage, compile refer .latest (anyOf items) =
      (fun schemas => ⟨.all [.anyOf (schemas.map Subschema.check)], coverage⟩) <$>
        compileItems refer .latest items := by
  generalize h : compileItems refer .latest items = schemas
  have hm : compileMembers refer .latest [("anyOf", .list items)] = [("anyOf", .many schemas)] := by
    rw [← h]
    rfl
  have hd : Draft.ofSchema? .latest (anyOf items) = some .latest := rfl
  unfold anyOf compile at *
  dsimp only
  rw [hd, Option.getD_some, hm]
  cases schemas with
  | error e => exact ⟨.none, rfl⟩
  | ok schemas => exact ⟨_, rfl⟩

def listOf (item : Json) : Json :=
  .object [("items", item), ("minItems", 1), ("type", "array")]

theorem compile_listOf (refer : String → Except String Subschema) (members : List (String × Json)) :
    ∃ coverage, compile refer .latest (listOf (.object members)) =
      (fun s => ⟨.all [.items "items" 0 s.check, .minItems 1, .type .latest [.array]], coverage⟩) <$>
        compile refer .latest (.object members) := by
  generalize h : compile refer .latest (.object members) = item
  have hm : compileMembers refer .latest
        [("items", .object members), ("minItems", 1), ("type", "array")] =
      [("items", .one item), ("minItems", .plain), ("type", .plain)] := by
    rw [← h]
    rfl
  have hd : Draft.ofSchema? .latest (listOf (.object members)) = some .latest := rfl
  unfold listOf compile at *
  dsimp only
  rw [hd, Option.getD_some, hm]
  cases item with
  | error e => exact ⟨.none, rfl⟩
  | ok s => exact ⟨_, rfl⟩

theorem allConform_iff (items : List Json) : allConform draft items ↔ ∀ item ∈ items, conforms draft item := by
  induction items with
  | nil => simp [allConform]
  | cons item rest ih =>
    unfold allConform
    rw [Bool.and_eq_true, ih, List.forall_mem_cons]

theorem itemsBare_iff (items : List Json) : itemsBare items ↔ ∀ item ∈ items, isBare item := by
  induction items with
  | nil => simp [itemsBare]
  | cons item rest ih =>
    unfold itemsBare
    rw [Bool.and_eq_true, ih, List.forall_mem_cons]

theorem conforms_anyOf_iff (hn : items ≠ []) :
    conforms .latest (anyOf items) ↔ ∀ item ∈ items, conforms .latest item := by
  rw [← allConform_iff]
  cases items with
  | nil => exact absurd rfl hn
  | cons first rest =>
    show (true && true && (allConform .latest (first :: rest) && true)) = true ↔ _
    simp

theorem isBare_anyOf (h : ∀ item ∈ items, isBare item) : isBare (anyOf items) := by
  rw [← itemsBare_iff] at h
  show (true && (false || itemsBare items) && true) = true
  rw [h]
  rfl

/-- A choice of schemas can be put anywhere, and accepts what any one of them accepts. -/
theorem nests_anyOf (h : ∀ item ∈ items, ∃ s, Nests item s) (hn : items ≠ []) :
    ∃ s, Nests (anyOf items) s ∧
      ∀ item ∈ items, ∀ t, Nests item t → ∀ d, t.accepts d → s.accepts d := by
  have hb : isBare (anyOf items) := by
    apply isBare_anyOf
    intro item hi
    rcases h item hi with ⟨s, hs⟩
    exact hs.bare
  have hf : conforms .latest (anyOf items) := by
    rw [conforms_anyOf_iff hn]
    intro item hi
    rcases h item hi with ⟨s, hs⟩
    exact hs.form
  rcases exists_compileItems h with ⟨schemas, hc, hm⟩
  rcases compile_anyOf (fun _ => .error "") items with ⟨coverage, hs⟩
  rw [hc] at hs
  refine ⟨⟨_, coverage⟩, ⟨hf, hb, fun refer => (compile_congr hb).trans hs⟩, ?_⟩
  intro item hi t ht d ha
  have hm := List.mem_map_of_mem (f := Subschema.check) (hm item hi t ht)
  unfold Subschema.accepts
  rw [Checker.accepts_all_iff, List.forall_mem_singleton]
  apply Checker.accepts_keyword_iff.mpr
  exact List.any_eq_true.mpr ⟨_, hm, ha⟩

theorem Nests.uniform (h : Nests schema s) : s.check.Uniform := by
  have hr : UniformRefer fun _ => .error "" := by
    intro _ _ h
    cases h
  exact uniform_compile hr (h.compile _)

theorem conforms_listOf_iff : conforms .latest (listOf item) ↔ conforms .latest item := by
  show (true && true && (conforms .latest item && true)) = true ↔ _
  simp

theorem accepts_items (h : c.Uniform) (hv : ∀ value ∈ values, c.accepts value) :
    (Checker.items key 0 c).accepts (.list values) := by
  unfold Checker.accepts Checker.items
  rw [List.isEmpty_iff, List.flatMap_eq_nil_iff]
  intro (value, i) hm
  exact h.eq_nil_iff.mpr (hv value (List.fst_mem_of_mem_zipIdx hm))

theorem nests_listOf (h : Nests (.object members) s) :
    ∃ t, Nests (listOf (.object members)) t ∧
      ∀ values, values ≠ [] → (∀ value ∈ values, s.accepts value) → t.accepts (.list values) := by
  have hb : isBare (listOf (.object members)) := by
    show (true && (membersBare members && true) && true) = true
    have := h.bare
    unfold isBare at this
    rw [this]
    rfl
  rcases compile_listOf (fun _ => .error "") members with ⟨coverage, ht⟩
  rw [h.compile] at ht
  refine ⟨⟨_, coverage⟩, ⟨conforms_listOf_iff.mpr h.form, hb, fun refer => (compile_congr hb).trans ht⟩, ?_⟩
  intro values hn hv
  unfold Subschema.accepts
  rw [Checker.accepts_all_iff]
  simp only [List.forall_mem_cons, List.not_mem_nil, false_implies, implies_true, and_true]
  refine ⟨accepts_items h.uniform hv, ?_, ?_⟩
  . apply Checker.accepts_keyword_iff.mpr
    exact decide_eq_true (List.length_pos_iff.mpr hn)
  . exact Checker.accepts_keyword_iff.mpr rfl

theorem validate_eq {defs : Definitions} (hr : defs.resolve schema = .ok resolved)
    (hs : read resolved = .ok s) : validate d schema defs = .ok (.ofViolations (s.check d .root)) := by
  have hc : CompiledSchema.ofJson schema defs = .ok ⟨resolved, s.check⟩ := by
    unfold CompiledSchema.ofJson
    rw [hr]
    dsimp only [bind, Except.bind]
    rw [hs]
    rfl
  unfold validate
  rw [hc]
  rfl

theorem isValid_ofViolations {s : Subschema} :
    (Validation.ofViolations (s.check d .root)).isValid = s.accepts d := by
  unfold Subschema.accepts Checker.accepts
  cases s.check d .root <;> rfl

theorem validate_eq_valid_iff {defs : Definitions} (hr : defs.resolve schema = .ok resolved)
    (hs : read resolved = .ok s) : validate d schema defs = .ok .valid ↔ s.accepts d := by
  rw [validate_eq hr hs, ← isValid_ofViolations]
  cases Validation.ofViolations (s.check d .root) <;> simp [Validation.isValid]

/-- Whatever definitions there are, a schema that nests is the same with and without them. -/
theorem Nests.validate (h : Nests schema s) (hd : Draft.ofSchema? .latest schema = some .latest)
    (he : (Definitions.embedded schema).isEmpty) (defs : Definitions) (ha : s.accepts d) :
    validate d schema defs = .ok .valid := by
  have hr : defs.resolve schema = .ok schema := by
    unfold Definitions.resolve
    rw [if_pos he]
    exact inline_of_isBare h.bare
  have hs : read schema = .ok s := by
    unfold read
    rw [hd]
    dsimp only
    rw [if_pos h.form]
    exact h.compile _
  exact (validate_eq_valid_iff hr hs).mpr ha

end Schema

end Turnstile
