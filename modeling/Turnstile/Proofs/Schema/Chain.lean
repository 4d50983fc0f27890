import Turnstile.Proofs.Schema.Expansion
import Turnstile.Proofs.Schema.Fetching

/-!
This module contains the proof that the spelling of a reference determines what it leads to, and what
following a reference inside of a chain comes to.
-/

namespace Turnstile

namespace Pointer

theorem slash_notMem_escape (segment : List Char) : '/' ∉ escape segment := by
  fun_induction escape segment with
  | case1 => simp
  | case2 rest ih => simpa using ih
  | case3 rest ih => simpa using ih
  | case4 c rest _ hc ih => simpa [Ne.symm hc] using ih

end Pointer

namespace Reference

/-- A pointer behind a name starts with the slash that ends the name. -/
def Separated (r : Reference) : Prop :=
  ∀ c, r.pointer.toList.head? = some c → c = '/'

theorem separated_of_ofText? (h : ofText? text = some r) : r.Separated := by
  have hs := (ofChars?_eq_some_iff.mp h).2
  generalize text.toList = chars at hs
  cases hs with
  | definition _ _ _ _ hp =>
    unfold Separated
    rwa [String.toList_ofList]
  | bare => nofun

variable {r r' : Reference}

theorem Separated.takeWhile_eq (hr : r.Separated) :
    (Pointer.escape r.name.toList ++ r.pointer.toList).takeWhile (· ≠ '/') =
      Pointer.escape r.name.toList :=
  takeWhile_segment (Pointer.slash_notMem_escape _) hr

theorem Separated.eq_of_canonical (hr : r.Separated) (hr' : r'.Separated)
    (h : r.canonical = r'.canonical) : r = r' := by
  unfold canonical at h
  have h := String.ofList_injective h
  rw [List.append_assoc, List.append_assoc] at h
  have h := List.append_cancel_left h
  have he : Pointer.escape r.name.toList = Pointer.escape r'.name.toList := by
    rw [← hr.takeWhile_eq, ← hr'.takeWhile_eq, h]
  have hn : r.name.toList = r'.name.toList := by
    rw [← Pointer.unescape_escape r.name.toList, he, Pointer.unescape_escape]
  rw [he] at h
  have hp := List.append_cancel_left h
  cases r
  cases r'
  simp_all [String.toList_inj]

end Reference

namespace Definitions

variable {defs : Definitions}

/-- The spelling by which a chain knows a reference. -/
def spelling? (reference : Json) : Option String := do
  let text ← reference.string?
  let target ← Reference.ofText? text
  return target.canonical

theorem spelling?_of_ofText? {text : String} (ht : Reference.ofText? text = some target) :
    spelling? (.string text) = some target.canonical := by
  simp [spelling?, Json.string?, ht]

theorem fetch?_eq_find? {text : String} (ht : Reference.ofText? text = some target) :
    defs.fetch? (.string text) = defs.find? target := by
  simp [fetch?, Json.string?, ht]

theorem fetch?_eq_of_spelling? (h : spelling? reference = some spelling)
    (h' : spelling? reference' = some spelling) : defs.fetch? reference = defs.fetch? reference' := by
  simp only [spelling?, fetch?, Option.bind_eq_bind, Option.bind_eq_some_iff] at *
  rcases h with ⟨text, ht, target, hr, hc⟩
  rcases h' with ⟨text', ht', target', hr', hc'⟩
  cases hc
  simp only [Option.pure_def, Option.some.injEq] at hc'
  have := (Reference.separated_of_ofText? hr').eq_of_canonical (Reference.separated_of_ofText? hr) hc'
  simp [ht, ht', hr, hr', this]

theorem expand_invalid (defs : Definitions) (h : reference.string? = none) :
    defs.expand limit chain reference = .error (.invalidRef reference) := by
  unfold expand
  split
  . cases h
  . rfl

theorem expand_cases (defs : Definitions) (chain : List String) (reference : Json) :
    (defs.fetch? reference = none ∧ ∃ e, ∀ limit, defs.expand limit chain reference = .error e) ∨
    ∃ spelling fetched, spelling? reference = some spelling ∧ defs.fetch? reference = some fetched ∧
      ((spelling ∈ chain ∧ ∀ limit, defs.expand limit chain reference =
          .error (.cyclicRef (chain ++ [spelling]))) ∨
        spelling ∉ chain ∧ ∀ limit, defs.expand (limit + 1) chain reference =
          Schema.inline (defs.expand limit (chain ++ [spelling])) fetched) := by
  match reference with
  | .string text =>
    cases ht : Reference.ofText? text with
    | none =>
      left
      refine ⟨by simp [fetch?, Json.string?, ht], .unsupportedRef text, ?_⟩
      intro limit
      unfold expand
      simp [ht]
    | some target =>
      have hs := spelling?_of_ofText? ht
      have hf : defs.fetch? (.string text) = defs.find? target := fetch?_eq_find? ht
      -- The chain is looked at before the definitions.
      by_cases hc : target.canonical ∈ chain
      . have he : ∀ limit, defs.expand limit chain (.string text) =
            .error (.cyclicRef (chain ++ [target.canonical])) := by
          intro limit
          unfold expand
          simp [ht, hc]
        cases hd : defs.find? target with
        | none => exact .inl ⟨hf.trans hd, _, he⟩
        | some fetched => exact .inr ⟨_, fetched, hs, hf.trans hd, .inl ⟨hc, he⟩⟩
      . cases hd : defs.find? target with
        | none =>
          left
          refine ⟨hf.trans hd, .unresolvedRef text, ?_⟩
          intro limit
          unfold expand
          simp [ht, hc, hd]
        | some fetched =>
          right
          refine ⟨_, fetched, hs, hf.trans hd, .inr ⟨hc, ?_⟩⟩
          intro limit
          conv => lhs; unfold expand
          simp [ht, hc, hd]
  | .null | .bool _ | .number _ | .list _ | .object _ =>
    left
    exact ⟨rfl, _, fun limit => defs.expand_invalid rfl⟩

theorem expand_zero (defs : Definitions) (chain : List String) (reference : Json) :
    ∃ e, defs.expand 0 chain reference = .error e := by
  unfold expand
  split
  . split
    . exact ⟨_, rfl⟩
    . split
      . exact ⟨_, rfl⟩
      . split <;> first | exact ⟨_, rfl⟩ | contradiction
  . exact ⟨_, rfl⟩

theorem expand_sound (defs : Definitions) (limit : Nat) (chain : List String) :
    defs.Sound (defs.expand limit chain) := by
  intro reference target h
  induction limit generalizing chain reference target with
  | zero =>
    rcases defs.expand_zero chain reference with ⟨e, he⟩
    simp [he] at h
  | succ limit ih =>
    rcases defs.expand_cases chain reference with ⟨_, e, he⟩ | ⟨_, fetched, _, hf, ⟨_, he⟩ | ⟨_, he⟩⟩
    . simp [he] at h
    . simp [he] at h
    . rw [he] at h
      exact ⟨fetched, hf, Schema.inline_sound (fun reference target => ih _ reference target) h⟩

end Definitions

end Turnstile
