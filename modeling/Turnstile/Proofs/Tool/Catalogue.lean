import Turnstile.Proofs.Tool.Request

/-!
This module contains what a further tool does to the others in a catalogue. As long as the schema of requests
can still be used, requests that do not name the tool are judged as before.
-/

namespace Turnstile

open Schema

namespace Tool

variable {tools : List Tool} {t u : Tool} {defs : Definitions} {d x : Json}
  {refer other : String → Except String Subschema}

/-- Neither the document nor, if it is a list, any of its items goes by the name. -/
def Avoids (name : String) (d : Json) : Prop :=
  ∀ x, ElementOf d x → x.get? "name" ≠ some (.string name)

/-- What does not name the tool is valid with it if it is without it, and invalid if it is without it. -/
def Undisturbed (defs : Definitions) (tools : List Tool) (u : Tool) : Prop :=
  ∀ d, Avoids u.name d → ∀ v, validate d (requestSchema tools) defs = .ok v →
    ∃ w, validate d (requestSchema (tools ++ [u])) defs = .ok w ∧ w.isValid = v.isValid

theorem avoids_null {name : String} : Avoids name .null := by
  intro x hx
  rcases hx with hx | ⟨values, hd, _⟩
  . subst hx
    simp [Json.get?]
  . cases hd

theorem requestable_of_validate {v : Validation} (h : validate d (requestSchema tools) defs = .ok v) :
    Requestable defs tools := by
  rcases bind_eq_ok h with ⟨compiled, hc, _⟩
  exact ⟨compiled, hc⟩

theorem Takes.congr (hb : ∀ arguments, inlined defs t = .ok arguments → isBare arguments)
    (h : Takes defs refer t x) : Takes defs other t x := by
  rcases h with ⟨hn, arguments, value, ha, hv, s, hs, hd⟩
  refine ⟨hn, arguments, value, ha, hv, s, ?_, hd⟩
  rw [← hs]
  exact compile_congr (hb _ ha)

theorem takes_congr (hb : ∀ arguments, inlined defs t = .ok arguments → isBare arguments) :
    Takes defs refer t x ↔ Takes defs other t x :=
  ⟨Takes.congr hb, Takes.congr hb⟩

/-- Where left-over references lead makes no difference, and the tool that is not named makes none either. -/
theorem requests_append_iff
    (hb : ∀ t ∈ tools, ∀ arguments, inlined defs t = .ok arguments → isBare arguments)
    (hd : Avoids u.name d) :
    Requests (Takes defs refer) (tools ++ [u]) d ↔ Requests (Takes defs other) tools d := by
  apply requests_congr
  intro x hx
  have hu : ¬ Takes defs refer u x := by
    intro h
    exact hd x hx h.1
  rw [exactlyOne_append_of_neg (P := (Takes defs refer · x)) hu]
  apply exactlyOne_congr
  intro t ht
  exact takes_congr (hb t ht)

theorem undisturbed_iff_requestable
    (hb : ∀ t ∈ tools, ∀ arguments, inlined defs t = .ok arguments → isBare arguments) :
    Undisturbed defs tools u ↔ (Requestable defs tools → Requestable defs (tools ++ [u])) := by
  constructor
  . intro h hq
    rcases hq.verdict with ⟨_, hv⟩
    rcases hv .null with ⟨v, hv, _⟩
    rcases h .null avoids_null v hv with ⟨w, hw, _⟩
    exact requestable_of_validate hw
  . intro h d hd v hv
    have hq := requestable_of_validate hv
    rcases hq.verdict with ⟨refer, hr⟩
    rcases hr d with ⟨w, hw, hone⟩
    cases hv.symm.trans hw
    rcases (h hq).verdict with ⟨other, hr⟩
    rcases hr d with ⟨w, hw, hall⟩
    refine ⟨w, hw, ?_⟩
    rw [Bool.eq_iff_iff, hall, hone]
    exact requests_append_iff hb hd

/--
Let no reference be left over in the catalogue. Then a further tool disturbs nothing exactly if the schema of
requests can still be used with it. If no reference is left over in the tool either, this is to say that its
input schema can be used, which is so at any rate if it resolves on its own to a schema of the latest draft.
-/
theorem undisturbed_iff (defs : Definitions) (tools : List Tool) (u : Tool)
    (hb : ∀ t ∈ tools, ∀ arguments, inlined defs t = .ok arguments → isBare arguments) :
    (Undisturbed defs tools u ↔ (Requestable defs tools → Requestable defs (tools ++ [u]))) ∧
    ((∀ arguments, inlined defs u = .ok arguments → isBare arguments) →
      (Undisturbed defs tools u ↔ ((∀ t ∈ tools, Usable defs t) → Usable defs u))) ∧
    ((∃ resolved, Expects u resolved) → Undisturbed defs tools u) := by
  have husable : (∀ arguments, inlined defs u = .ok arguments → isBare arguments) →
      (Undisturbed defs tools u ↔ ((∀ t ∈ tools, Usable defs t) → Usable defs u)) := by
    intro hu
    have hall : ∀ t ∈ tools ++ [u], ∀ arguments, inlined defs t = .ok arguments → isBare arguments := by
      rw [List.forall_mem_append, List.forall_mem_singleton]
      exact ⟨hb, hu⟩
    rw [undisturbed_iff_requestable hb, requestable_iff_usable hb, requestable_iff_usable hall,
      List.forall_mem_append, List.forall_mem_singleton]
    constructor
    . intro h ht
      exact (h ht).2
    . intro h ht
      exact ⟨ht, h ht⟩
  refine ⟨undisturbed_iff_requestable hb, husable, ?_⟩
  intro ⟨resolved, he⟩
  apply (husable fun arguments ha => he.isBare_of_inlined ha).mpr
  intro _
  exact he.usable defs

namespace Sample

/-- A tool whose input schema is recursive. -/
def tree : Tool :=
  ⟨"tree", none, .object [
    ("$defs", .object [("tree", .object [("properties", .object [
      ("children", .object [("items", .object [("$ref", "#/$defs/tree")])])])])]),
    ("$ref", "#/$defs/tree")], none⟩

def pinging : Json :=
  .object [("arguments", .object []), ("name", "ping")]

end Sample

open Tool.Sample

theorem avoids_pinging {name : String} (h : name ≠ "ping") : Avoids name pinging := by
  intro x hx
  rcases hx with hx | ⟨values, hd, _⟩
  . subst hx
    intro hg
    cases hg
    exact h rfl
  . cases hd

theorem undisturbed_iff_length :
    (∀ t ∈ [ping], ∀ arguments, inlined units t = .ok arguments → isBare arguments) ∧
    Undisturbed units [ping] length ∧
    ∃ w, validate pinging (requestSchema [ping, length]) units = .ok w ∧ w.isValid = true := by
  have hb : ∀ t ∈ [ping], ∀ arguments, inlined units t = .ok arguments → isBare arguments := by
    rw [List.forall_mem_singleton]
    intro arguments ha
    cases ha
    rfl
  have hu := (undisturbed_iff units [ping] length hb).2.2 ⟨_, rfl, rfl, rfl, ⟨_, rfl⟩⟩
  have hv : validate pinging (requestSchema [ping]) units = .ok .valid := rfl
  exact ⟨hb, hu, hu pinging (avoids_pinging (by decide)) _ hv⟩

theorem undisturbed_not_tree : ¬ ∀ (defs : Definitions) (tools : List Tool) (u : Tool),
    (∀ t ∈ tools, t.name ≠ u.name) → Undisturbed defs tools u := by
  intro h
  have hn : ∀ t ∈ [ping], t.name ≠ tree.name := by decide
  have hv : validate pinging (requestSchema [ping]) {} = .ok .valid := rfl
  have he : validate pinging (requestSchema [ping, tree]) {} =
      .error (.unresolvedRef "#/$defs/tree") := rfl
  rcases h {} [ping] tree hn pinging (avoids_pinging (by decide)) _ hv with ⟨w, hw, _⟩
  cases he.symm.trans hw

end Tool

end Turnstile
