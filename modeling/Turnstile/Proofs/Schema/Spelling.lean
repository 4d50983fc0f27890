import Turnstile.Proofs.Schema.Cycle
import Turnstile.Proofs.Schema.Source

/-!
This module contains the proof that references are as good as their canonical spellings: each reference is read again
from its own, no two references share one, and resolving that keeps the references themselves to find cycles comes to
the same as resolving that keeps their spellings.
-/

namespace Turnstile

namespace Pointer

namespace Unescapes

variable {digit c : Char} {f : List Char → List Char} {text : List Char}

theorem ne_nil (h : Unescapes digit f) (hn : text ≠ []) : f text ≠ [] := by
  cases text with
  | nil => exact absurd rfl hn
  | cons d rest =>
    by_cases hp : ['~', digit] <+: d :: rest
    . rcases h.exists_of_prefix hp with ⟨others, _, hf⟩
      exact List.ne_nil_of_length_eq_add_one hf
    . rw [h.plain d rest hp]
      exact List.cons_ne_nil _ _

theorem eq_self_of_not_mem (h : Unescapes digit f) (hc : ∀ rest, f ('~' :: digit :: rest) = c :: f rest)
    (hn : c ∉ f text) : f text = text := by
  induction text with
  | nil => exact h.nil
  | cons d rest ih =>
    by_cases hp : ['~', digit] <+: d :: rest
    . rcases hp with ⟨others, ht⟩
      rw [← ht] at hn
      exact absurd (by simp [hc]) hn
    . rw [h.plain d rest hp] at hn ⊢
      rw [ih (List.not_mem_of_not_mem_cons hn)]

/-- What is at the end of the reading, and is not of an escape, was at the end before. -/
theorem suffix {word text : List Char} (h : Unescapes digit f)
    (hc : ∀ rest, f ('~' :: digit :: rest) = c :: f rest) (hw : c ∉ word) (hs : word <:+ f text) :
    word <:+ text := by
  match text with
  | [] => rwa [h.nil] at hs
  | d :: rest =>
    by_cases hp : ['~', digit] <+: d :: rest
    . rcases hp with ⟨others, ht⟩
      have hlen : others.length + 1 < (d :: rest).length := by simp [← ht]
      rw [← ht, List.cons_append, List.cons_append, List.nil_append] at hs ⊢
      rw [hc, List.suffix_cons_iff] at hs
      rcases hs with he | hs
      . rw [he] at hw
        exact absurd List.mem_cons_self hw
      . exact (h.suffix hc hw hs).trans (List.suffix_append ['~', digit] others)
    . rw [h.plain d rest hp, List.suffix_cons_iff] at hs
      rcases hs with he | hs
      . rw [he] at hw
        rw [h.eq_self_of_not_mem hc (List.not_mem_of_not_mem_cons hw)] at he
        exact List.suffix_cons_iff.mpr (.inl he)
      . exact (h.suffix hc hw hs).trans (List.suffix_cons d rest)
termination_by text.length
decreasing_by
  . omega
  . simp

end Unescapes

/-- The characters that escapes are made of, and those that they stand for. -/
def marks : List Char := ['~', '/', '0', '1']

variable {segment word : List Char}

theorem unescape_ne_nil (h : segment ≠ []) : unescape segment ≠ [] :=
  unescapes_tilde.ne_nil (unescapes_slash.ne_nil h)

theorem escape_ne_nil (h : segment ≠ []) : escape segment ≠ [] := by
  intro he
  apply h
  rw [← unescape_escape segment, he]
  rfl

theorem suffix_of_unescape (hw : ∀ c ∈ word, c ∉ marks) (h : word <:+ unescape segment) : word <:+ segment := by
  have hslash : '/' ∉ word := fun hm => hw _ hm (by decide)
  have htilde : '~' ∉ word := fun hm => hw _ hm (by decide)
  apply unescapes_slash.suffix (fun _ => rfl) hslash
  exact unescapes_tilde.suffix (fun _ => rfl) htilde h

theorem escape_eq_self (h : '~' ∉ escape segment) : escape segment = segment := by
  fun_induction escape segment with
  | case1 => rfl
  | case2 => simp at h
  | case3 => simp at h
  | case4 c rest _ _ ih => rw [ih (List.not_mem_of_not_mem_cons h)]

theorem suffix_of_escape (hw : ∀ c ∈ word, c ∉ marks) (h : word <:+ escape segment) : word <:+ segment := by
  have hmark : ∀ {c rest}, c ∈ marks → word <:+ c :: rest → word <:+ rest := by
    intro c rest hc hs
    rcases List.suffix_cons_iff.mp hs with he | hs
    . exact absurd hc (hw c (by simp [he]))
    . exact hs
  fun_induction escape segment with
  | case1 => exact h
  | case2 rest ih =>
    have hs := hmark (by decide) (hmark (by decide) h)
    exact (ih hs).trans (List.suffix_cons _ _)
  | case3 rest ih =>
    have hs := hmark (by decide) (hmark (by decide) h)
    exact (ih hs).trans (List.suffix_cons _ _)
  | case4 c rest _ _ ih =>
    rcases List.suffix_cons_iff.mp h with he | hs
    . have hn : '~' ∉ escape rest := by
        intro hm
        have hm : '~' ∈ word := by simp [he, hm]
        exact hw _ hm (by decide)
      rw [escape_eq_self hn] at he
      exact List.suffix_cons_iff.mpr (.inl he)
    . exact (ih hs).trans (List.suffix_cons _ _)

end Pointer

namespace Reference

variable {segment segment' pointer : List Char} {text : String} {target : Reference}

theorem scheme_infix_append_iff (hs : '/' ∉ segment) :
    "://".toList <:+: segment ++ pointer ↔
      ([':'] <:+ segment ∧ ['/', '/'] <+: pointer) ∨ "://".toList <:+: pointer := by
  constructor
  . intro h
    rcases List.infix_append_iff.mp h with hi | hi | ⟨before, behind, he, hb, hp⟩
    . exact absurd (hi.subset (by decide)) hs
    . exact .inr hi
    . -- A slash ends the part that is in the segment.
      match before with
      | [] =>
        rw [he]
        exact .inr hp.isInfix
      | [c] =>
        cases he
        exact .inl ⟨hb, hp⟩
      | c :: d :: rest =>
        have he : [':', '/', '/'] = c :: d :: (rest ++ behind) := he
        injection he with _ he
        injection he with hd
        subst hd
        exact absurd (hb.subset (by simp)) hs
  . rintro (⟨hb, hp⟩ | hi)
    . exact List.infix_append_iff.mpr (.inr (.inr ⟨[':'], ['/', '/'], rfl, hb, hp⟩))
    . exact hi.trans (List.suffix_append segment pointer).isInfix

theorem file_suffix_append_iff (hp : ∀ c, pointer.head? = some c → c = '/') :
    ".json".toList <:+ segment ++ pointer ↔
      (pointer = [] ∧ ".json".toList <:+ segment) ∨ ".json".toList <:+ pointer := by
  cases pointer with
  | nil => simp
  | cons c rest =>
    have hc : c = '/' := hp c rfl
    subst hc
    constructor
    . intro h
      rcases List.suffix_or_suffix_of_suffix h (List.suffix_append segment ('/' :: rest)) with hi | hi
      . exact .inr hi
      . exact absurd (hi.subset List.mem_cons_self) (by decide)
    . rintro (⟨hn, _⟩ | hi)
      . cases hn
      . exact hi.trans (List.suffix_append _ _)

theorem isRemote_append_iff (hs : '/' ∉ segment) (hp : ∀ c, pointer.head? = some c → c = '/') :
    isRemote (segment ++ pointer) ↔
      ([':'] <:+ segment ∧ ['/', '/'] <+: pointer) ∨ (pointer = [] ∧ ".json".toList <:+ segment)
        ∨ isRemote pointer := by
  rw [isRemote_iff, isRemote_iff]
  unfold Remote
  rw [scheme_infix_append_iff hs, file_suffix_append_iff hp]
  tauto

/-- Whether a reference is remote is a matter of how its name ends, for names without slashes. -/
theorem isRemote_append_of_suffix (hs : '/' ∉ segment) (hs' : '/' ∉ segment')
    (hp : ∀ c, pointer.head? = some c → c = '/')
    (hw : ∀ word : List Char, (∀ c ∈ word, c ∉ Pointer.marks) → word <:+ segment' → word <:+ segment)
    (h : isRemote (segment' ++ pointer)) : isRemote (segment ++ pointer) := by
  rw [isRemote_append_iff hs' hp] at h
  rw [isRemote_append_iff hs hp]
  rcases h with ⟨hc, hp⟩ | ⟨hp, hf⟩ | hr
  . exact .inl ⟨hw _ (by simp [Pointer.marks]) hc, hp⟩
  . exact .inr (.inl ⟨hp, hw _ (by simp [Pointer.marks]) hf⟩)
  . exact .inr (.inr hr)

theorem Separated.dropWhile_eq (hs : target.Separated) :
    (Pointer.escape target.name.toList ++ target.pointer.toList).dropWhile (· ≠ '/') = target.pointer.toList :=
  dropWhile_segment (Pointer.slash_notMem_escape _) hs

theorem Separated.ofText?_canonical (hs : target.Separated) (hn : target.name ≠ "")
    (hr : ¬ isRemote (Pointer.escape target.name.toList ++ target.pointer.toList)) :
    ofText? target.canonical = some target := by
  have he : Pointer.escape target.name.toList ≠ [] := by
    apply Pointer.escape_ne_nil
    simpa using hn
  unfold ofText? canonical
  rw [String.toList_ofList, List.append_assoc, ofChars?_defsStart, hs.takeWhile_eq, hs.dropWhile_eq,
    if_neg (by simp [hr, he]), Pointer.unescape_escape, String.ofList_toList, String.ofList_toList]

/-- A name that is read with a pointer behind it can be written with escapes. -/
theorem not_isRemote_of_unescape (hs : '/' ∉ segment) (hp : ∀ c, pointer.head? = some c → c = '/')
    (h : ¬ isRemote (segment ++ pointer)) :
    ¬ isRemote (Pointer.escape (Pointer.unescape segment) ++ pointer) := by
  intro hr
  apply h
  apply isRemote_append_of_suffix hs (Pointer.slash_notMem_escape _) hp _ hr
  intro word hw hsuffix
  exact Pointer.suffix_of_unescape hw (Pointer.suffix_of_escape hw hsuffix)

/-- So can a bare name, which may have slashes. -/
theorem not_isRemote_escape (h : ¬ isRemote segment) : ¬ isRemote (Pointer.escape segment) := by
  intro hr
  apply h
  rw [isRemote_iff_of_not_mem (Pointer.slash_notMem_escape _)] at hr
  have hf := Pointer.suffix_of_escape (by simp [Pointer.marks]) hr
  rw [isRemote_iff]
  exact .inr hf

/-- A reference that is read from some text is read from its canonical spelling. -/
theorem ofText?_canonical_of_ofText? (h : ofText? text = some target) : ofText? target.canonical = some target := by
  have hs := separated_of_ofText? h
  rcases ofChars?_eq_some_iff.mp h with ⟨hr, hspells⟩
  rw [← isRemote_iff] at hr
  generalize text.toList = chars at hr hspells
  cases hspells with
  | definition hstart hn hm hk hp =>
    rw [isRemote_start hstart] at hr
    rw [← hk.unescape_eq] at hs ⊢
    apply hs.ofText?_canonical
    . have := Pointer.unescape_ne_nil hn
      simpa using this
    . rw [String.toList_ofList, String.toList_ofList]
      exact not_isRemote_of_unescape hm hp hr
  | bare hn =>
    apply hs.ofText?_canonical
    . simpa using hn
    . have := not_isRemote_escape hr
      simpa using this

theorem ofText?_start {start : String} (hs : start ∈ starts) (rest : String) :
    ofText? (start ++ rest) = ofText? ("#/$defs/" ++ rest) := by
  unfold ofText?
  rw [String.toList_append, String.toList_append, ofChars?_start hs, ofChars?_start (.head _)]

/-- A bare name can be written behind either start with escapes, and without them if it is plain. -/
theorem ofText?_bare {name start : String} (h : ofText? name = some target) (hh : name.toList.head? ≠ some '#')
    (hs : start ∈ ["#/$defs/", "#/definitions/"]) :
    target = ⟨name, ""⟩
    ∧ ofText? (start ++ Pointer.escapeText name) = some target
    ∧ (ofText? (start ++ name) = some target ↔ Plain name) := by
  have ht : target = ⟨name, ""⟩ := by
    have hspells := (ofChars?_eq_some_iff.mp h).2
    generalize hname : name.toList = text at hspells hh
    cases hspells with
    | definition hstart => exact absurd (head?_start hstart _) hh
    | bare => rw [← hname, String.ofList_toList]
  rw [ofText?_start hs, ofText?_start hs]
  refine ⟨ht, ?_, ?_⟩
  . have hc := ofText?_canonical_of_ofText? h
    have he : target.canonical = "#/$defs/" ++ Pointer.escapeText name := by
      rw [ht, ← String.toList_inj, String.toList_append]
      unfold canonical Pointer.escapeText defsStart
      simp only [String.toList_ofList, String.toList_empty, List.append_nil]
    rwa [he] at hc
  . rw [ht, ← ofChars?_eq_self_iff]
    unfold ofText?
    rw [String.toList_append]
    rfl

end Reference

namespace Definitions

variable {defs : Definitions} {targets : List Reference} {target : Reference}

/-- Follows a reference as `expand` does, but keeps the targets themselves to find a cycle, and not their spellings. -/
def expandByTarget (defs : Definitions) : Nat → List Reference → Json → Except SchemaError Json
  | limit, targets, reference =>
    match reference with
    | .string text =>
      match Reference.ofText? text with
      | none => .error (.unsupportedRef text)
      | some target =>
        if target ∈ targets then
          .error (.cyclicRef ((targets ++ [target]).map Reference.canonical))
        else
          match defs.find? target, limit with
          | none, _ => .error (.unresolvedRef text)
          | some _, 0 => .error (.cyclicRef ((targets ++ [target]).map Reference.canonical))
          | some fetched, limit + 1 => Schema.inline (expandByTarget defs limit (targets ++ [target])) fetched
    | other => .error (.invalidRef other)

def resolveByTarget (defs : Definitions) (schema : Json) : Except SchemaError Json :=
  let scope := defs.scope schema
  Schema.inline (scope.expandByTarget (scope.depthLimit + 1) []) (body schema)

theorem mem_canonical_iff (ht : target.Separated) (hs : ∀ other ∈ targets, other.Separated) :
    target.canonical ∈ targets.map Reference.canonical ↔ target ∈ targets := by
  constructor
  . intro h
    rcases List.mem_map.mp h with ⟨other, hm, hc⟩
    rwa [← (hs other hm).eq_of_canonical ht hc]
  . exact List.mem_map_of_mem

/-- The chain of spellings is that of the targets at each reference that is followed. -/
theorem expand_canonical {targets : List Reference} (defs : Definitions) (limit : Nat) (reference : Json)
    (hs : ∀ other ∈ targets, other.Separated) :
    defs.expand limit (targets.map Reference.canonical) reference = defs.expandByTarget limit targets reference := by
  cases reference with
  | string text =>
    cases ht : Reference.ofText? text with
    | none =>
      unfold expand expandByTarget
      simp only [ht]
    | some target =>
      have hsep := Reference.separated_of_ofText? ht
      have hs' : ∀ other ∈ targets ++ [target], other.Separated := by
        intro other ho
        rcases List.mem_append.mp ho with ho | ho
        . exact hs other ho
        . rw [List.mem_singleton.mp ho]
          exact hsep
      unfold expand expandByTarget
      simp only [ht, List.contains_iff_mem, mem_canonical_iff hsep hs, List.map_append, List.map_singleton]
      split
      . rfl
      . cases defs.find? target with
        | none => rfl
        | some fetched =>
          cases limit with
          | zero => rfl
          | succ limit =>
            have ih : defs.expand limit (targets.map Reference.canonical ++ [target.canonical]) =
                defs.expandByTarget limit (targets ++ [target]) := by
              funext next
              rw [← expand_canonical defs limit next hs', List.map_append, List.map_singleton]
            dsimp only
            rw [ih]
  | _ =>
    unfold expand expandByTarget
    rfl

theorem resolve_eq_resolveByTarget (defs : Definitions) (schema : Json) :
    defs.resolve schema = defs.resolveByTarget schema := by
  have hs : ∀ other ∈ ([] : List Reference), other.Separated := by
    intro other ho
    cases ho
  rw [resolve_eq_inline]
  unfold resolveByTarget
  congr 1
  funext reference
  exact expand_canonical (defs.scope schema) _ reference hs

/--
The canonical spelling of a reference is read as that reference, and no other reference has it. The ways to write a
name are read alike; and to find cycles by the spellings is to find them by what the references lead to.
-/
theorem spellings_faithful :
    (∀ text target, Reference.ofText? text = some target → Reference.ofText? target.canonical = some target)
    ∧ (∀ text text' target target', Reference.ofText? text = some target → Reference.ofText? text' = some target' →
        (target.canonical = target'.canonical ↔ target.name = target'.name ∧ target.pointer = target'.pointer))
    ∧ (∀ rest, Reference.ofText? ("#/definitions/" ++ rest) = Reference.ofText? ("#/$defs/" ++ rest))
    ∧ (∀ name target, Reference.ofText? name = some target → name.toList.head? ≠ some '#' →
        ∀ start ∈ ["#/$defs/", "#/definitions/"],
          target = ⟨name, ""⟩
          ∧ Reference.ofText? (start ++ Pointer.escapeText name) = some target
          ∧ (Reference.ofText? (start ++ name) = some target ↔ Reference.Plain name))
    ∧ ∀ (defs : Definitions) (schema : Json), defs.resolve schema = defs.resolveByTarget schema := by
  refine ⟨fun _ _ => Reference.ofText?_canonical_of_ofText?, ?_, Reference.ofText?_start (.tail _ (.head _)), ?_,
    resolve_eq_resolveByTarget⟩
  . intro text text' target target' h h'
    constructor
    . intro hc
      have he := (Reference.separated_of_ofText? h).eq_of_canonical (Reference.separated_of_ofText? h') hc
      rw [he]
      exact ⟨rfl, rfl⟩
    . intro ⟨hn, hp⟩
      unfold Reference.canonical
      rw [hn, hp]
  . intro name target h hh start hs
    exact Reference.ofText?_bare h hh hs

theorem spellings_faithful_tilde :
    Reference.ofText? "#/definitions/~~1x/items" = some ⟨"~/x", "/items"⟩
    ∧ Reference.ofText? "~/x" = some ⟨"~/x", ""⟩
    ∧ Reference.ofText? (Reference.canonical ⟨"~/x", "/items"⟩) = some ⟨"~/x", "/items"⟩
    ∧ Reference.canonical ⟨"~/x", "/items"⟩ ≠ Reference.canonical ⟨"~/x", ""⟩
    ∧ Reference.ofText? ("#/definitions/" ++ Pointer.escapeText "~/x") = some ⟨"~/x", ""⟩
    ∧ Sample.trees.resolveByTarget Sample.forest =
        .error (.cyclicRef ["#/$defs/tree", "#/$defs/branches", "#/$defs/tree"]) := by
  have hitems : Reference.ofText? "#/definitions/~~1x/items" = some ⟨"~/x", "/items"⟩ := by decide +kernel
  have hx : Reference.ofText? "~/x" = some ⟨"~/x", ""⟩ := by decide +kernel
  have hh : "~/x".toList.head? ≠ some '#' := by decide
  have hcycle : Sample.trees.resolve Sample.forest =
      .error (.cyclicRef ["#/$defs/tree", "#/$defs/branches", "#/$defs/tree"]) := by rfl
  rcases spellings_faithful with ⟨hread, happart, _, hbare, hresolve⟩
  refine ⟨hitems, hx, hread _ _ hitems, ?_, (hbare _ _ hx hh "#/definitions/" (by simp)).2.1, hresolve _ _ ▸ hcycle⟩
  intro hc
  have hp := ((happart _ _ _ _ hitems hx).mp hc).2
  exact absurd hp (by decide)

end Definitions

end Turnstile
