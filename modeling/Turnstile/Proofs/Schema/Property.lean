import Turnstile.Proofs.Schema.Uniform

/-!
This module contains what a schema says about a property: the schema of the property has the form that
the draft asks for and can be read, and the property of a valid document is valid under it.
-/

namespace Turnstile

namespace Schema

theorem conforms_of_entriesConform (h : entriesConform draft entries) :
    ∀ entry ∈ entries, conforms draft entry.2 := by
  induction entries with
  | nil => simp
  | cons entry rest ih =>
    unfold entriesConform at h
    rw [Bool.and_eq_true] at h
    rw [List.forall_mem_cons]
    exact ⟨h.1, ih h.2⟩

theorem ofKeyword_properties (draft : Draft) : Form.ofKeyword draft "properties" = .schemaMap := by
  cases draft <;> rfl

theorem entriesConform_of_member (h : membersConform draft members)
    (hm : ("properties", .object entries) ∈ members) : entriesConform draft entries := by
  induction members with
  | nil => cases hm
  | cons member rest ih =>
    unfold membersConform at h
    rw [Bool.and_eq_true] at h
    cases hm with
    | head =>
      rw [ofKeyword_properties] at h
      exact h.1
    | tail _ hm => exact ih h.2 hm

theorem mem_of_lookup {members : List (String × α)} (h : members.lookup key = some value) :
    (key, value) ∈ members := by
  rcases List.lookup_eq_some_iff.mp h with ⟨before, behind, he, _⟩
  simp [he]

theorem conforms_property (h : conforms draft (.object members))
    (hp : members.lookup "properties" = some (.object entries)) (hm : (name, schema) ∈ entries) :
    conforms draft schema := by
  unfold conforms at h
  rw [Bool.and_eq_true] at h
  exact conforms_of_entriesConform (entriesConform_of_member h.2 (mem_of_lookup hp)) _ hm

variable {refer : String → Except String Subschema}

theorem lookup_compileMembers (hk : key ∈ namedKeywords)
    (h : members.lookup key = some (.object entries)) :
    (compileMembers refer draft members).lookup key = some (.named (compileEntries refer draft entries)) := by
  induction members with
  | nil => cases h
  | cons member rest ih =>
    rcases member with ⟨other, value⟩
    unfold compileMembers
    dsimp only
    rw [List.lookup_cons] at *
    split at h
    . next hn =>
      rw [beq_iff_eq] at hn
      subst hn
      cases h
      simp [hk]
    . exact ih h

theorem lookup_compileEntries (h : compileEntries refer draft entries = .ok schemas)
    (hl : entries.lookup name = some schema) :
    ∃ s, schemas.lookup name = some s ∧ compile refer draft schema = .ok s := by
  induction entries generalizing schemas with
  | nil => cases hl
  | cons entry rest ih =>
    rcases entry with ⟨other, value⟩
    rcases bind_eq_ok h with ⟨first, hf, h⟩
    rcases bind_eq_ok h with ⟨others, ho, h⟩
    cases h
    rw [List.lookup_cons] at *
    split at hl
    . next hn =>
      cases hl
      exact ⟨first, rfl, hf⟩
    . exact ih ho hl

namespace Members

variable {m : Members}

theorem lookup_checkers (h : schemas.lookup name = some s) :
    (checkers schemas).lookup name = some s.check := by
  induction schemas with
  | nil => cases h
  | cons entry rest ih =>
    rcases entry with ⟨other, first⟩
    show List.lookup name ((other, first.check) :: checkers rest) = some s.check
    rw [List.lookup_cons] at *
    split at h
    . cases h
      rfl
    . exact ih h

theorem nil_of_declared {named : Checker.Named} {patterns : Checker.Matched}
    (hl : named.lookup name = some part) (h : Checker.declared named patterns name value p = []) :
    ∃ q, part value q = [] := by
  unfold Checker.declared at h
  rw [List.append_eq_nil_iff, hl] at h
  exact ⟨_, h.1⟩

theorem nil_of_properties {named : Checker.Named} (hl : named.lookup name = some part)
    (hv : d.get? name = some value) (h : Checker.properties named d p = []) : ∃ q, part value q = [] := by
  unfold Checker.properties at h
  rw [List.flatMap_eq_nil_iff] at h
  have := h _ (mem_of_lookup hl)
  dsimp only at this
  rw [hv] at this
  exact ⟨_, this⟩

theorem exists_member {d : Json} (h : d.get? key = some value) :
    ∃ members, d = .object members ∧ (key, value) ∈ members := by
  unfold Json.get? at h
  split at h
  . exact ⟨_, rfl, mem_of_lookup h⟩
  . cases h

theorem nil_of_closed {named : Checker.Named} {patterns : Checker.Matched}
    (hl : named.lookup name = some part) (hv : d.get? name = some value)
    (h : Checker.closed named patterns d p = []) : ∃ q, part value q = [] := by
  rcases exists_member hv with ⟨members, hd, hm⟩
  subst hd
  unfold Checker.closed at h
  dsimp only at h
  rw [List.append_eq_nil_iff, List.flatMap_eq_nil_iff] at h
  exact nil_of_declared hl (h.1 _ hm)

theorem nil_of_additional {named : Checker.Named} {patterns : Checker.Matched}
    (hl : named.lookup name = some part) (hv : d.get? name = some value)
    (h : Checker.additional named patterns rest d p = []) : ∃ q, part value q = [] := by
  rcases exists_member hv with ⟨members, hd, hm⟩
  subst hd
  unfold Checker.additional at h
  dsimp only at h
  rw [List.flatMap_eq_nil_iff] at h
  replace h := h _ hm
  have hn : Checker.declares named patterns name := by simp [Checker.declares, hl]
  dsimp only at h
  rw [if_pos hn] at h
  exact nil_of_declared hl h

theorem nil_of_additionalProperties (hc : m.additionalProperties = .ok c) (ht : m.takesOver)
    (hp : m.has "properties") (hn : m.named "properties" = .ok schemas)
    (hl : schemas.lookup name = some part) (hv : d.get? name = some value) (h : c d p = []) :
    ∃ q, part.check value q = [] := by
  rcases bind_eq_ok hc with ⟨named, hs, hc⟩
  cases hn.symm.trans hs
  rcases bind_eq_ok hc with ⟨patterns, _, hc⟩
  unfold takesOver at ht
  dsimp only at hc
  split at hc
  . next ha =>
    rw [ha] at ht
    cases ht
  . rw [hp] at hc
    cases hc
    exact nil_of_closed (lookup_checkers hl) hv h
  . rcases bind_eq_ok hc with ⟨rest, _, hc⟩
    cases hc
    exact nil_of_additional (lookup_checkers hl) hv h

theorem mem_bearing (hd : m.draft = .latest) (hk : Draft.latest.counts key) (hm : (key, value) ∈ m.values) :
    (key, value) ∈ m.bearing := by
  have hi : Draft.latest.isolatesReferences = false := by rfl
  unfold bearing
  rw [hd, hi]
  simp [hm, hk]

theorem exists_keyword (hs : m.subschema = .ok s) (hd : m.draft = .latest) (hk : Draft.latest.counts key)
    (hh : m.has key) :
    ∃ value c, m.values.lookup key = some value ∧ m.keyword key value = .ok c ∧
      ∀ d p, s.check d p = [] → c d p = [] := by
  rcases Option.isSome_iff_exists.mp hh with ⟨value, hl⟩
  rcases bind_eq_ok hs with ⟨checkers, hm, hs⟩
  cases hs
  rcases exists_of_mem_mapM hm _ (mem_bearing hd hk (mem_of_lookup hl)) with ⟨c, hc, he⟩
  refine ⟨value, c, hl, he, ?_⟩
  intro d p h
  exact List.flatMap_eq_nil_iff.mp h c hc

theorem exists_named (hs : m.subschema = .ok s) (hd : m.draft = .latest) (hp : m.has "properties") :
    ∃ schemas, m.named "properties" = .ok schemas := by
  rcases exists_keyword hs hd (by rfl) hp with ⟨_, _, _, he, _⟩
  rcases bind_eq_ok he with ⟨schemas, hn, _⟩
  exact ⟨schemas, hn⟩

/-- Whichever keyword takes care of the properties that are declared. -/
theorem nil_of_subschema (hs : m.subschema = .ok s) (hd : m.draft = .latest) (hp : m.has "properties")
    (hn : m.named "properties" = .ok schemas) (hl : schemas.lookup name = some part)
    (hc : s.check d p = []) (hv : d.get? name = some value) : ∃ q, part.check value q = [] := by
  cases ht : m.takesOver with
  | true =>
    have hh : m.has "additionalProperties" := by
      unfold takesOver at ht
      unfold has
      split at ht <;> simp_all
    rcases exists_keyword hs hd (by rfl) hh with ⟨_, c, _, he, h⟩
    exact nil_of_additionalProperties he ht hp hn hl hv (h d p hc)
  | false =>
    rcases exists_keyword hs hd (by rfl) hp with ⟨_, c, _, he, h⟩
    replace h := h d p hc
    rcases bind_eq_ok he with ⟨named, hs, he⟩
    cases hn.symm.trans hs
    cases he
    rw [ht] at h
    exact nil_of_properties (lookup_checkers hl) hv h

end Members

/-- A property of a valid document is valid under the schema of the property. -/
theorem compile_property (hr : UniformRefer refer) (h : compile refer .latest (.object members) = .ok s)
    (hd : Draft.ofSchema? .latest (.object members) = some .latest)
    (hp : members.lookup "properties" = some (.object entries)) (hl : entries.lookup name = some schema) :
    ∃ part, compile refer .latest schema = .ok part ∧
      ∀ d value, s.accepts d → d.get? name = some value → part.accepts value := by
  unfold compile at h
  dsimp only at h
  rw [hd] at h
  generalize hm : Members.mk _ _ _ _ = m at h
  have hh : m.has "properties" := by
    subst hm
    simp [Members.has, hp]
  have hn : m.parts.lookup "properties" = some (.named (compileEntries refer .latest entries)) := by
    subst hm
    exact lookup_compileMembers (by decide) hp
  have hd : m.draft = .latest := by
    subst hm
    rfl
  rcases Members.exists_named h hd hh with ⟨schemas, hs⟩
  have he : compileEntries refer .latest entries = .ok schemas := by
    unfold Members.named at hs
    rw [hn] at hs
    exact hs
  rcases lookup_compileEntries he hl with ⟨part, hi, hc⟩
  refine ⟨part, hc, ?_⟩
  intro d value ha hv
  have ha : s.check d .root = [] := List.isEmpty_iff.mp ha
  rcases Members.nil_of_subschema h hd hh hs hi ha hv with ⟨q, hq⟩
  exact (uniform_compile hr hc).eq_nil_iff.mp hq

end Schema

end Turnstile
