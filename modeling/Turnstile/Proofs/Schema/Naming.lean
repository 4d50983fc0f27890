import Turnstile.Proofs.Schema.Resolution

/-!
This module contains references to whole definitions: how they are read, what they resolve to, and whether a
definition that resolves for itself can be referred to as well.
-/

namespace Turnstile

namespace Reference

/-- Without a slash, what comes behind the start is a name and no pointer. -/
theorem ofChars?_of_not_mem {rest : List Char} (hs : '/' ∉ rest) :
    ofChars? (defsStart ++ rest) =
      if isRemote rest ∨ rest = [] then none else some ⟨String.ofList (Pointer.unescape rest), ""⟩ := by
  have hp : ∀ c ∈ rest, decide (c ≠ '/') = true := by
    intro c hc
    simpa using ne_of_mem_of_not_mem hc hs
  rw [ofChars?_defsStart, List.takeWhile_eq_self_iff.mpr hp, List.dropWhile_eq_nil_iff.mpr hp]

/-- The spelling of a name is read as that name, or not read at all. -/
theorem ofText?_canonical {name : String} {r : Reference} (h : ofText? (canonical ⟨name, ""⟩) = some r) :
    r = ⟨name, ""⟩ := by
  unfold ofText? canonical at h
  rw [String.toList_ofList, String.toList_empty, List.append_nil,
    ofChars?_of_not_mem (Pointer.slash_notMem_escape _), Pointer.unescape_escape, String.ofList_toList] at h
  split at h
  . cases h
  . cases h
    rfl

end Reference

namespace Definitions

open Schema

variable {defs : Definitions} {definition reference v : Json} {name : String}

/-- A reference and nothing else. -/
def lone (reference : Json) : Json :=
  .object [("$ref", reference)]

theorem expands_lone_iff (hf : defs.fetch? reference = some definition) :
    defs.Expands (lone reference) v ↔ defs.Expands definition v := by
  have hm : ∀ expanded, defs.ExpandsMembers [("$ref", reference)] expanded ↔ expanded = [] := by
    intro expanded
    constructor
    . intro h
      cases h with
      | reference hr =>
        cases hr
        rfl
      | keyword hk => exact absurd rfl hk
    . intro h
      subst h
      exact .reference .nil
  constructor
  . intro h
    cases h with
    | atom ho => cases ho
    | keywords hr => cases hr
    | reference hr hf' ht =>
      cases hr
      cases hf.symm.trans hf'
      exact ht
    | conjunction _ _ _ hs hn => exact absurd ((hm _).mp hs) hn
  . intro h
    exact .reference rfl hf h ((hm _).mpr rfl)

/-- A reference resolves to the expansion of what it leads to, in which there are no further definitions. -/
theorem resolve_lone_iff (hf : defs.fetch? reference = some definition) :
    defs.resolve (lone reference) = .ok v ↔ defs.Expands definition v := by
  rw [resolve_eq_ok_iff, ← expands_lone_iff hf]
  rfl

theorem fetch?_of_ofText? {text : String} (h : Reference.ofText? text = some ⟨name, ""⟩) :
    defs.fetch? (.string text) = defs.get? name := by
  have hp : ∀ definition : Json, definition.pointer? "" = some definition := fun _ => rfl
  simp [fetch?, find?, Json.string?, h, hp]

theorem exists_resolve_of_check (hc : defs.check = []) (hd : defs.get? name = some definition) :
    ∃ v, defs.resolve definition = .ok v := by
  have hm : (name, definition) ∈ defs.entries := (Table.lookup_eq_some_iff_mem defs.nodup).mp hd
  have hn := List.filterMap_eq_nil_iff.mp hc _ hm
  dsimp only at hn
  split at hn
  . next v hv => exact ⟨v, hv⟩
  . cases hn

/-- Expanding keeps all keywords but references. -/
theorem ExpandsMembers.keys (h : defs.ExpandsMembers members expanded) :
    expanded.map Prod.fst = (members.map Prod.fst).filter (· ≠ "$ref") := by
  match h with
  | .nil => rfl
  | .reference hm => simpa using hm.keys
  | .keyword hk _ hm => simp [hk, hm.keys]
termination_by structural h

theorem Expands.keys (h : defs.Expands (.object members) v) (hr : members.lookup "$ref" = none) :
    ∃ expanded, v = .object expanded ∧
      expanded.map Prod.fst = (members.map Prod.fst).filter (· ≠ "$ref") := by
  cases h with
  | atom ho => cases ho
  | keywords _ hm => exact ⟨_, rfl, hm.keys⟩
  | reference hr' => simp [hr] at hr'
  | conjunction hr' => simp [hr] at hr'

/-- The schema defines no names of its own. -/
def DefinesNothing (schema : Json) : Prop :=
  ∀ keyword ∈ keywords, ¬ Brings schema keyword

theorem embedded_isEmpty_iff_definesNothing (schema : Json) :
    (embedded schema).isEmpty ↔ DefinesNothing schema := by
  rw [embedded_isEmpty_iff]
  simp [DefinesNothing, keywords]

theorem resolve_iff_of_definesNothing (h : DefinesNothing definition) :
    defs.resolve definition = .ok v ↔ defs.Expands definition v := by
  have he := (embedded_isEmpty_iff_definesNothing definition).mpr h
  rw [resolve_eq_ok_iff]
  unfold scope body
  rw [if_pos he]
  simp only [Table.isEmpty, List.isEmpty_iff] at he
  simp [override, he, Table.insertAll]

/-- An expansion inside of other schemas keeps the definitions that resolving a schema takes off. -/
theorem expands_ne_resolve {w : Json} (hn : ¬ DefinesNothing definition) (hr : definition.get? "$ref" = none)
    (he : defs.Expands definition v) (hw : defs.resolve definition = .ok w) : v ≠ w := by
  have hb : ∃ keyword ∈ keywords, Brings definition keyword := by simpa [DefinesNothing] using hn
  rcases hb with ⟨keyword, hk, entries, hg, _⟩
  cases definition with
  | object members =>
    have hr : members.lookup "$ref" = none := hr
    have hs : body (.object members) = .object (members.filter fun member => !keywords.contains member.1) := by
      unfold body
      rw [if_neg]
      . rfl
      . rwa [embedded_isEmpty_iff_definesNothing]
    rw [resolve_eq_ok_iff, hs] at hw
    have hl : (members.filter fun member => !keywords.contains member.1).lookup "$ref" = none := by
      have hkeep : (!keywords.contains "$ref") = true := by decide
      rw [← hr]
      exact Table.lookup_filter (p := fun key => !keywords.contains key) hkeep members
    rcases he.keys hr with ⟨expanded, hv, hkeys⟩
    rcases hw.keys hl with ⟨stripped, hv', hkeys'⟩
    rw [hv, hv']
    intro h
    cases h
    have hm : keyword ∈ members.map Prod.fst := by
      have hg : members.lookup keyword = some (.object entries) := hg
      rcases List.lookup_eq_some_iff.mp hg with ⟨before, behind, hm, _⟩
      simp [hm]
    have hne : keyword ≠ "$ref" := by
      intro he
      rw [he] at hk
      exact absurd hk (by decide)
    have : keyword ∈ expanded.map Prod.fst := by
      rw [hkeys, List.mem_filter]
      exact ⟨hm, by simpa using hne⟩
    rw [hkeys'] at this
    simp [hk] at this
  | _ => cases hg

/--
Let all definitions resolve, and let a name be one that can be referred to. The reference resolves to the
expansion of the definition without the names that the definition itself defines. If it defines none, this is
what the definition resolves to; and if it is not a reference itself, this is so in no other case.
-/
theorem definition_referable (hc : defs.check = []) (hd : defs.get? name = some definition)
    (hr : (Reference.ofText? (Reference.canonical ⟨name, ""⟩)).isSome) :
    (∃ v, defs.resolve definition = .ok v)
    ∧ (∀ v, defs.resolve (lone (.string (Reference.canonical ⟨name, ""⟩))) = .ok v ↔
        defs.Expands definition v)
    ∧ (DefinesNothing definition →
        defs.resolve (lone (.string (Reference.canonical ⟨name, ""⟩))) = defs.resolve definition)
    ∧ (definition.get? "$ref" = none →
        (defs.resolve (lone (.string (Reference.canonical ⟨name, ""⟩))) = defs.resolve definition ↔
          DefinesNothing definition)) := by
  rcases exists_resolve_of_check hc hd with ⟨v, hv⟩
  have hf : defs.fetch? (.string (Reference.canonical ⟨name, ""⟩)) = some definition := by
    rcases Option.isSome_iff_exists.mp hr with ⟨r, ht⟩
    rw [Reference.ofText?_canonical ht] at ht
    rw [fetch?_of_ofText? ht, hd]
  have hagree : DefinesNothing definition →
      defs.resolve (lone (.string (Reference.canonical ⟨name, ""⟩))) = defs.resolve definition := by
    intro h
    rw [hv, resolve_lone_iff hf]
    exact (resolve_iff_of_definesNothing h).mp hv
  refine ⟨⟨v, hv⟩, fun v => resolve_lone_iff hf, hagree, ?_⟩
  intro hk
  refine ⟨?_, hagree⟩
  intro h
  by_contra hn
  rw [hv, resolve_lone_iff hf] at h
  exact expands_ne_resolve hn hk h hv rfl

namespace Sample

/-- A definition with a definition of its own. -/
def numbers : Json :=
  .object [("$defs", .object [("item", .object [("type", "number")])]),
    ("items", .object [("$ref", "#/$defs/item")])]

end Sample

theorem definition_referable_toolCalls :
    builtin.check = []
    ∧ builtin.get? "tool-calls" = some toolCalls
    ∧ (Reference.ofText? (Reference.canonical ⟨"tool-calls", ""⟩)).isSome
    ∧ DefinesNothing toolCalls
    ∧ builtin.resolve (lone (.string (Reference.canonical ⟨"tool-calls", ""⟩))) = builtin.resolve toolCalls := by
  have hc : builtin.check = [] := by rfl
  have hd : builtin.get? "tool-calls" = some toolCalls := by rfl
  have hr : (Reference.ofText? (Reference.canonical ⟨"tool-calls", ""⟩)).isSome := by decide +kernel
  have hn : DefinesNothing toolCalls := by
    rw [← embedded_isEmpty_iff_definesNothing]
    rfl
  exact ⟨hc, hd, hr, hn, (definition_referable hc hd hr).2.2.1 hn⟩

theorem definition_not_referable_numbers : ¬ ∀ (defs : Definitions) (name : String) (definition : Json),
    defs.check = [] → defs.get? name = some definition →
    (Reference.ofText? (Reference.canonical ⟨name, ""⟩)).isSome →
    ∃ v, defs.resolve (lone (.string (Reference.canonical ⟨name, ""⟩))) = .ok v
      ∧ defs.resolve definition = .ok v := by
  intro h
  have hr : (Reference.ofText? (Reference.canonical ⟨"numbers", ""⟩)).isSome := by decide +kernel
  have he : Definitions.resolve (.ofList [("numbers", Sample.numbers)])
      (lone (.string (Reference.canonical ⟨"numbers", ""⟩))) = .error (.unresolvedRef "#/$defs/item") := rfl
  rcases h (.ofList [("numbers", Sample.numbers)]) "numbers" Sample.numbers rfl rfl hr with ⟨v, hv, _⟩
  cases he.symm.trans hv

end Definitions

end Turnstile
