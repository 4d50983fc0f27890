import Turnstile.Proofs.Machine.Document
import Turnstile.Proofs.Schema.Naming

/-!
This module contains what a schema source that names a definition comes to. Its reference has the name in it as it
is, without escapes; so it means the definition of that name exactly if reading the reference changes nothing.
-/

namespace Turnstile

namespace Pointer

/-- The function reads one escape, a tilde with a digit behind it. -/
structure Unescapes (digit : Char) (f : List Char → List Char) : Prop where
  nil : f [] = []
  escape : ∀ rest, ∃ c, f ('~' :: digit :: rest) = c :: f rest
  plain : ∀ c rest, ¬ ['~', digit] <+: c :: rest → f (c :: rest) = c :: f rest

theorem unescapes_slash : Unescapes '1' unescapeSlash where
  nil := rfl
  escape _ := ⟨_, rfl⟩
  plain c rest h := by
    rw [unescapeSlash]
    intro others hc hr
    apply h
    rw [hc, hr]
    exact ⟨others, rfl⟩

theorem unescapes_tilde : Unescapes '0' unescapeTilde where
  nil := rfl
  escape _ := ⟨_, rfl⟩
  plain c rest h := by
    rw [unescapeTilde]
    intro others hc hr
    apply h
    rw [hc, hr]
    exact ⟨others, rfl⟩

namespace Unescapes

variable {digit : Char} {f : List Char → List Char} {text : List Char}

theorem exists_of_prefix (h : Unescapes digit f) (hp : ['~', digit] <+: text) :
    ∃ rest, text.length = rest.length + 2 ∧ (f text).length = (f rest).length + 1 := by
  rcases hp with ⟨rest, ht⟩
  rcases h.escape rest with ⟨c, hc⟩
  subst ht
  refine ⟨rest, rfl, ?_⟩
  show (f ('~' :: digit :: rest)).length = _
  rw [hc, List.length_cons]

theorem length_le (h : Unescapes digit f) (text : List Char) : (f text).length ≤ text.length := by
  match text with
  | [] => simp [h.nil]
  | c :: rest =>
    by_cases hp : ['~', digit] <+: c :: rest
    . rcases h.exists_of_prefix hp with ⟨others, ht, hf⟩
      have := h.length_le others
      omega
    . have := h.length_le rest
      rw [h.plain c rest hp]
      simpa using this
termination_by text.length
decreasing_by
  . omega
  . simp

theorem length_lt (h : Unescapes digit f) (hi : ['~', digit] <:+: text) : (f text).length < text.length := by
  induction text with
  | nil => simp at hi
  | cons c rest ih =>
    by_cases hp : ['~', digit] <+: c :: rest
    . rcases h.exists_of_prefix hp with ⟨others, ht, hf⟩
      have := h.length_le others
      omega
    . rw [List.infix_cons_iff] at hi
      rw [h.plain c rest hp]
      simpa using ih (hi.resolve_left hp)

theorem eq_self (h : Unescapes digit f) (hn : ¬ ['~', digit] <:+: text) : f text = text := by
  induction text with
  | nil => exact h.nil
  | cons c rest ih =>
    rw [List.infix_cons_iff, not_or] at hn
    rw [h.plain c rest hn.1, ih hn.2]

end Unescapes

/-- A text is its own reading only if it has no escapes, as each of them makes it shorter. -/
theorem unescape_eq_self_iff (text : List Char) :
    unescape text = text ↔ ¬ ['~', '0'] <:+: text ∧ ¬ ['~', '1'] <:+: text := by
  have hslash := unescapes_slash.length_le text
  have htilde := unescapes_tilde.length_le (unescapeSlash text)
  unfold unescape
  constructor
  . intro he
    have hs : unescapeSlash text = text := by
      apply unescapes_slash.eq_self
      intro hi
      have := unescapes_slash.length_lt hi
      rw [he] at htilde
      omega
    constructor
    . intro hi
      have := unescapes_tilde.length_lt hi
      rw [hs] at he
      rw [he] at this
      omega
    . intro hi
      have := unescapes_slash.length_lt hi
      rw [hs] at this
      omega
  . intro ⟨h0, h1⟩
    rw [unescapes_slash.eq_self h1, unescapes_tilde.eq_self h0]

end Pointer

namespace Reference

/-- The name can stand in a reference as it is. -/
structure Plain (name : String) : Prop where
  ne_empty : name ≠ ""
  slash : '/' ∉ name.toList
  tilde : ¬ ['~', '0'] <:+: name.toList ∧ ¬ ['~', '1'] <:+: name.toList
  nearby : ¬ ".json".toList <:+ name.toList

theorem isRemote_iff_of_not_mem {text : List Char} (hs : '/' ∉ text) :
    isRemote text ↔ ".json".toList <:+ text := by
  have ho : ¬ "://".toList <:+: text := by
    intro h
    exact hs (h.subset (by decide))
  rw [isRemote_iff]
  exact or_iff_right ho

/-- What is read behind the start of a reference is the text there exactly if the text is a plain name. -/
theorem ofChars?_eq_self_iff (name : String) :
    ofChars? (defsStart ++ name.toList) = some ⟨name, ""⟩ ↔ Plain name := by
  by_cases hs : '/' ∈ name.toList
  . constructor
    . intro h
      rw [ofChars?_defsStart] at h
      split at h
      . cases h
      . -- The slash starts a pointer.
        have hd : name.toList.dropWhile (· ≠ '/') = [] := by
          injection h with h
          injection h with _ hp
          exact String.ofList_injective hp
        rw [List.dropWhile_eq_nil_iff] at hd
        simpa using hd '/' hs
    . intro h
      exact absurd hs h.slash
  . rw [ofChars?_of_not_mem hs]
    constructor
    . intro h
      split at h
      . cases h
      . next hn =>
        rw [not_or, isRemote_iff_of_not_mem hs] at hn
        injection h with h
        injection h with hu _
        refine ⟨?_, hs, ?_, hn.1⟩
        . intro he
          exact hn.2 (by rw [he]; rfl)
        . rw [← Pointer.unescape_eq_self_iff]
          apply String.ofList_injective
          rw [hu, String.ofList_toList]
    . intro h
      rw [if_neg, (Pointer.unescape_eq_self_iff _).mpr h.tilde, String.ofList_toList]
      rw [not_or, isRemote_iff_of_not_mem hs]
      refine ⟨h.nearby, ?_⟩
      simpa using h.ne_empty

end Reference

namespace SchemaSource

open Document

/-- The reference in the document of a source that names a definition. -/
def reference (name : String) : Json :=
  .string (String.ofList (Reference.defsStart ++ name.toList))

theorem referTo_eq_lone (name : String) : referTo name = Definitions.lone (reference name) := rfl

/--
The document of the source is read as the source, and its reference leads to the definition of that name, wherever
there is one, and to no part of it.
-/
structure Means (name : String) : Prop where
  restored : Restored (named name)
  read : ((referTo name).get? "$ref").bind (·.string?.bind Reference.ofText?) = some ⟨name, ""⟩
  fetched : ∀ (defs : Definitions) (definition : Json), defs.get? name = some definition →
    defs.fetch? (reference name) = some definition
  resolved : ∀ (defs : Definitions) (definition : Json), defs.get? name = some definition →
    ∀ v, defs.resolve (referTo name) = .ok v ↔ defs.Expands definition v

theorem ofJson_referTo (name : String) :
    ofJson (referTo name) = if name = "" ∨ '/' ∈ name.toList then .literal (referTo name) else named name := by
  have hr : referredName? (referTo name) = if name = "" ∨ '/' ∈ name.toList then none else some name := by
    simp only [referTo, referredName?, String.toList_ofList, Reference.after?_append]
    simp
  unfold referTo at hr ⊢
  unfold ofJson
  dsimp only
  rw [hr]
  by_cases h : name = "" ∨ '/' ∈ name.toList
  . rw [if_pos h, if_pos h]
  . rw [if_neg h, if_neg h]

theorem restored_named_iff (name : String) : Restored (named name) ↔ name ≠ "" ∧ '/' ∉ name.toList := by
  have hn : (referTo name).normalize = referTo name := rfl
  unfold Restored
  show Document.ofJson (referTo name) = _ ↔ _
  rw [decode_eq, hn, ofJson_referTo, ← not_or]
  split <;> simp_all

theorem read_iff (name : String) :
    ((referTo name).get? "$ref").bind (·.string?.bind Reference.ofText?) = some ⟨name, ""⟩ ↔
      Reference.Plain name := by
  rw [← Reference.ofChars?_eq_self_iff]
  show Reference.ofText? (String.ofList (Reference.defsStart ++ name.toList)) = _ ↔ _
  unfold Reference.ofText?
  rw [String.toList_ofList]

/-- A source that names a definition means it exactly if its name can stand in a reference as it is. -/
theorem named_means_iff (name : String) : Means name ↔ Reference.Plain name := by
  constructor
  . intro h
    exact (read_iff name).mp h.read
  . intro h
    have hr := (read_iff name).mpr h
    have hf : ∀ (defs : Definitions) (definition : Json), defs.get? name = some definition →
        defs.fetch? (reference name) = some definition := by
      intro defs definition hd
      rw [reference, Definitions.fetch?_of_ofText? hr, hd]
    refine ⟨(restored_named_iff name).mpr ⟨h.ne_empty, h.slash⟩, hr, hf, ?_⟩
    intro defs definition hd v
    rw [referTo_eq_lone]
    exact Definitions.resolve_lone_iff (hf defs definition hd)

/-- With a slash in it, a name is taken for a name and a pointer. -/
theorem named_not_means_slash : ¬ ∀ name, Means name := by
  intro h
  have := (restored_named_iff "a/b").mp (h "a/b").restored
  exact this.2 (by decide)

end SchemaSource

end Turnstile
