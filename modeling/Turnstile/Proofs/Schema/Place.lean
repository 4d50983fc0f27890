import Turnstile.Schema.Content
import Turnstile.Schema.Coverage

/-!
This module contains the uniformity of the keywords: whether a keyword finds fault with a document does
not depend on the place at which the document stands, as long as this holds of the subschemas.
-/

namespace Turnstile

namespace Checker

def Uniform (c : Checker) : Prop :=
  ∀ d p q, c d p = [] → c d q = []

variable {c yes no : Checker} {d : Json} {p : Place}

theorem Uniform.eq_nil_iff (h : c.Uniform) : c d p = [] ↔ c.accepts d := by
  unfold accepts
  rw [List.isEmpty_iff]
  constructor
  . apply h
  . apply h

theorem uniform_always : always.Uniform := by
  intro d p q _
  rfl

theorem uniform_never : never.Uniform := by
  intro d p q h
  cases h

theorem uniform_keyword : (keyword key holds message).Uniform := by
  intro d p q h
  unfold keyword at *
  split at h
  . next hd => rw [if_pos hd]
  . cases h

theorem accepts_keyword_iff : (keyword key holds message).accepts d ↔ holds d := by
  unfold accepts keyword
  split <;> simp_all

theorem accepts_all_iff (checkers : List Checker) :
    (all checkers).accepts d ↔ ∀ c ∈ checkers, c.accepts d := by
  unfold accepts all
  simp [List.flatMap_eq_nil_iff]

theorem uniform_all (h : ∀ c ∈ checkers, Uniform c) : (all checkers).Uniform := by
  intro d p q hp
  unfold all at *
  rw [List.flatMap_eq_nil_iff] at *
  intro c hc
  exact h c hc d p q (hp c hc)

theorem uniform_within (h : c.Uniform) : (within keys c).Uniform := by
  intro d p q
  apply h

theorem uniform_missing : (missing names).Uniform := by
  intro d p q h
  unfold missing at *
  split at h
  . simpa using h
  . rfl

theorem uniform_required : (required names).Uniform := by
  intro d p q
  apply uniform_missing

theorem uniform_dependentRequired : (dependentRequired key dependencies).Uniform := by
  intro d p q h
  unfold dependentRequired at *
  rw [List.flatMap_eq_nil_iff] at *
  intro (name, names) hm
  replace h := h (name, names) hm
  dsimp at *
  split
  . next hs =>
    rw [if_pos hs] at h
    exact uniform_missing d _ _ h
  . rfl

theorem uniform_contains : (contains item least most).Uniform := by
  intro d p q h
  unfold contains at *
  cases d with
  | list items => cases least <;> cases most <;> grind
  | _ => rfl

theorem uniform_anyOf : (anyOf branches).Uniform :=
  uniform_keyword

theorem uniform_oneOf : (oneOf branches).Uniform := by
  intro d p q h
  unfold oneOf at *
  grind

theorem uniform_allOf (h : ∀ c ∈ branches, Uniform c) : (allOf branches).Uniform := by
  intro d p q hp
  unfold allOf at *
  rw [List.flatMap_eq_nil_iff] at *
  intro (c, i) hc
  exact h c (List.fst_mem_of_mem_zipIdx hc) d _ _ (hp (c, i) hc)

theorem uniform_conditional (hy : yes.Uniform) (hn : no.Uniform) :
    (conditional c yes no).Uniform := by
  intro d p q h
  unfold conditional at *
  split at h
  . next hc =>
    rw [if_pos hc]
    exact hy d _ _ h
  . next hc =>
    rw [if_neg hc]
    exact hn d _ _ h

theorem uniform_items (h : c.Uniform) : (items key skipped c).Uniform := by
  intro d p q hp
  unfold items at *
  split at hp
  . dsimp
    rw [List.flatMap_eq_nil_iff] at *
    intro entry hm
    exact h _ _ _ (hp entry hm)
  . rfl

theorem uniform_tuple (h : ∀ c ∈ checkers, Uniform c) : (tuple key checkers).Uniform := by
  intro d p q hp
  unfold tuple at *
  split at hp
  . dsimp
    rw [List.flatMap_eq_nil_iff] at *
    intro ((value, c), i) hm
    have hc := (List.of_mem_zip (List.fst_mem_of_mem_zipIdx hm)).2
    exact h c hc _ _ _ (hp _ hm)
  . rfl

def Named.Uniform (named : Named) : Prop :=
  ∀ entry ∈ named, entry.2.Uniform

def Matched.Uniform (patterns : Matched) : Prop :=
  ∀ entry ∈ patterns, entry.2.2.Uniform

variable {named : Named} {patterns : Matched} {name : String} {value : Json} {q : Place}

theorem Matched.Uniform.matching (h : patterns.Uniform) (hp : matching patterns name value p = []) :
    matching patterns name value q = [] := by
  unfold Checker.matching at *
  rw [List.flatMap_eq_nil_iff] at *
  intro (text, pattern, body) hm
  replace hp := hp _ hm
  dsimp at *
  split
  . next ho =>
    rw [if_pos ho] at hp
    exact h _ hm _ _ _ hp
  . rfl

theorem Named.Uniform.declared (hn : named.Uniform) (hm : patterns.Uniform)
    (hp : declared named patterns name value p = []) : declared named patterns name value q = [] := by
  unfold Checker.declared at *
  rw [List.append_eq_nil_iff] at *
  refine ⟨?_, hm.matching hp.2⟩
  split
  . next body hb =>
    rw [hb] at hp
    rcases List.lookup_eq_some_iff.mp hb with ⟨before, behind, he, _⟩
    exact hn (name, body) (by simp [he]) _ _ _ hp.1
  . rfl

theorem uniform_properties (h : named.Uniform) : (properties named).Uniform := by
  intro d p q hp
  unfold properties at *
  rw [List.flatMap_eq_nil_iff] at *
  intro (name, body) hm
  replace hp := hp _ hm
  dsimp at *
  split
  . next value hv =>
    rw [hv] at hp
    exact h _ hm _ _ _ hp
  . rfl

theorem uniform_patternProperties (h : patterns.Uniform) : (patternProperties patterns).Uniform := by
  intro d p q hp
  unfold patternProperties at *
  split at hp
  . dsimp
    simp only [List.flatMap_eq_nil_iff] at *
    intro pattern hm member hv
    have hs : Matched.Uniform [pattern] := by
      intro entry he
      cases List.mem_singleton.mp he
      exact h _ hm
    exact hs.matching (hp pattern hm member hv)
  . rfl

theorem uniform_additional (hn : named.Uniform) (hm : patterns.Uniform) (hc : c.Uniform) :
    (additional named patterns c).Uniform := by
  intro d p q hp
  unfold additional at *
  split at hp
  . dsimp
    rw [List.flatMap_eq_nil_iff] at *
    intro (name, value) hv
    replace hp := hp _ hv
    dsimp at *
    split
    . next hd =>
      rw [if_pos hd] at hp
      exact hn.declared hm hp
    . next hd =>
      rw [if_neg hd] at hp
      exact hc _ _ _ hp
  . rfl

theorem uniform_closed (hn : named.Uniform) (hm : patterns.Uniform) :
    (closed named patterns).Uniform := by
  intro d p q hp
  unfold closed at *
  split at hp
  . dsimp at *
    rw [List.append_eq_nil_iff, List.flatMap_eq_nil_iff] at *
    constructor
    . intro member hv
      exact hn.declared hm (hp.1 member hv)
    . grind
  . rfl

theorem uniform_propertyless : propertyless.Uniform := by
  intro d p q h
  unfold propertyless at *
  split at h
  . cases h
  . rfl

theorem uniform_propertyNames (h : c.Uniform) : (propertyNames c).Uniform := by
  intro d p q hp
  unfold propertyNames at *
  split at hp
  . dsimp
    rw [List.flatMap_eq_nil_iff] at *
    intro member hm
    exact h _ _ _ (hp member hm)
  . rfl

theorem uniform_nameless : nameless.Uniform := by
  intro d p q h
  unfold nameless at *
  split at h
  . cases h
  . rfl

theorem uniform_dependentSchemas (h : named.Uniform) : (dependentSchemas key named).Uniform := by
  intro d p q hp
  unfold dependentSchemas at *
  rw [List.flatMap_eq_nil_iff] at *
  intro (name, body) hm
  replace hp := hp _ hm
  dsimp at *
  split
  . next hs =>
    rw [if_pos hs] at hp
    exact h _ hm _ _ _ hp
  . rfl

theorem uniform_dependencies (h : named.Uniform) :
    Uniform fun d p => named.flatMap fun (name, body) => if (d.get? name).isSome then body d p else [] := by
  intro d p q hp
  rw [List.flatMap_eq_nil_iff] at *
  intro (name, body) hm
  replace hp := hp _ hm
  dsimp at *
  split
  . next hs =>
    rw [if_pos hs] at hp
    exact h _ hm _ _ _ hp
  . rfl

theorem uniform_contentEncoding : (contentEncoding encoding).Uniform := by
  unfold contentEncoding
  split
  . exact uniform_keyword
  . exact uniform_always

theorem uniform_contentMediaType : (contentMediaType media encoding).Uniform := by
  unfold contentMediaType
  dsimp only
  split
  . exact uniform_always
  . split
    . exact uniform_keyword
    . intro d p q h
      grind

theorem uniform_unevaluatedProperties : (unevaluatedProperties coverage).Uniform := by
  intro d p q h
  unfold unevaluatedProperties at *
  grind

theorem uniform_unevaluatedItems : (unevaluatedItems coverage).Uniform := by
  intro d p q h
  unfold unevaluatedItems at *
  grind

end Checker

end Turnstile
