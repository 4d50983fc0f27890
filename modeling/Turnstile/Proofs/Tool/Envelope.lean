import Turnstile.Proofs.Schema.Nesting
import Turnstile.Tool.Call
import Turnstile.Tool.Schema

/-!
This module contains the agreement between the values of results and the schema of responses. Of a result
that is nothing but an envelope only the content stays, and of a schema that declares nothing but an
envelope only the schema of the content; a response is valid where both go together.
-/

namespace Turnstile

open Schema

namespace ToolResult

def IsEnvelope (structured : Json) : Prop :=
  ∃ value, structured = .object [("result", value)]

theorem unwrap_of_not_isEnvelope (h : ¬ IsEnvelope structured) : unwrap structured = structured := by
  unfold unwrap
  split
  . exact absurd ⟨_, rfl⟩ h
  . rfl

theorem value_of_structured (he : isError result = false)
    (hc : result.get? "structuredContent" = some structured) : value result = .ok (unwrap structured) := by
  unfold value
  rw [he, hc]
  rfl

end ToolResult

namespace Tool

def DeclaresEnvelope (schema : Json) : Prop :=
  ∃ inner, (schema.get? "properties").bind Json.members? = some [("result", inner)]

theorem unwrapOutput_of_not_declaresEnvelope (h : ¬ DeclaresEnvelope schema) :
    unwrapOutput schema = schema := by
  unfold unwrapOutput
  split
  . next hp => exact absurd ⟨_, hp⟩ h
  . rfl

/-- The output schema of the tool, which resolves to the given one, can be put inside another schema. -/
structure Declares (t : Tool) (schema resolved : Json) : Prop where
  declared : t.outputSchema = some schema
  resolves : Definitions.resolve {} schema = .ok resolved
  portable : Portable resolved

theorem Declares.standalone (h : Declares t schema resolved) : standalone schema = resolved := by
  unfold Tool.standalone
  rw [h.resolves]

theorem exists_outputs {tools : List Tool} (h : ∀ t ∈ tools, ∃ schema resolved, Declares t schema resolved) :
    ∃ outputs, outputs? tools = some outputs ∧
      (∀ output ∈ outputs, ∃ t ∈ tools, ∃ schema resolved, Declares t schema resolved ∧
        output = unwrapOutput resolved) ∧
      ∀ t ∈ tools, ∀ schema resolved, Declares t schema resolved → unwrapOutput resolved ∈ outputs := by
  induction tools with
  | nil => exact ⟨[], rfl, by simp, by simp⟩
  | cons t rest ih =>
    rw [List.forall_mem_cons] at h
    rcases h.1 with ⟨schema, resolved, hd⟩
    rcases ih h.2 with ⟨outputs, ho, hf, hm⟩
    refine ⟨unwrapOutput resolved :: outputs, ?_, ?_, ?_⟩
    . unfold outputs? at *
      rw [List.mapM_cons, ho, hd.declared, Option.map_some, hd.standalone]
      rfl
    . rw [List.forall_mem_cons]
      refine ⟨⟨t, .head _, schema, resolved, hd, rfl⟩, ?_⟩
      intro output hm
      rcases hf output hm with ⟨t, ht, h⟩
      exact ⟨t, .tail _ ht, h⟩
    . rw [List.forall_mem_cons]
      constructor
      . intro other result ho
        cases hd.declared.symm.trans ho.declared
        cases hd.resolves.symm.trans ho.resolves
        exact .head _
      . intro t ht schema resolved hd
        exact .tail _ (hm t ht schema resolved hd)

theorem Declares.nests (h : Declares t schema resolved) : ∃ s, Nests (unwrapOutput resolved) s := by
  rcases h.portable.readable with ⟨s, hs⟩
  by_cases he : DeclaresEnvelope resolved
  . rcases he with ⟨inner, hp⟩
    rcases (h.portable.nests hs).property h.portable.draft hp List.lookup_cons_self with ⟨t, ht, _⟩
    unfold unwrapOutput
    rw [hp]
    exact ⟨t, ht⟩
  . rw [unwrapOutput_of_not_declaresEnvelope he]
    exact ⟨s, h.portable.nests hs⟩

/-- A result without an error whose structured content is valid under the output schema of the tool. -/
structure Gives (t : Tool) (result structured : Json) : Prop where
  succeeds : ToolResult.isError result = false
  carries : result.get? "structuredContent" = some structured
  valid : ∃ schema, t.outputSchema = some schema ∧ validate structured schema {} = .ok .valid

/-- The content is an envelope where an envelope is declared, and only there. -/
def Agrees (t : Tool) (structured : Json) : Prop :=
  ToolResult.IsEnvelope structured ↔
    ∃ schema, t.outputSchema = some schema ∧ DeclaresEnvelope (standalone schema)

theorem Gives.accepts (h : Gives t result structured) (hd : Declares t schema resolved)
    (hs : read resolved = .ok s) : s.accepts structured := by
  rcases h.valid with ⟨other, ho, hv⟩
  cases hd.declared.symm.trans ho
  exact (validate_eq_valid_iff hd.resolves hs).mp hv

theorem Agrees.iff (h : Agrees t structured) (hd : Declares t schema resolved) :
    ToolResult.IsEnvelope structured ↔ DeclaresEnvelope resolved := by
  unfold Agrees at h
  rw [h]
  constructor
  . intro he
    rcases he with ⟨other, ho, he⟩
    cases hd.declared.symm.trans ho
    rw [← hd.standalone]
    exact he
  . intro he
    rw [← hd.standalone] at he
    exact ⟨schema, hd.declared, he⟩

/-- The envelope comes off the content as it comes off the schema. -/
theorem Gives.unwrap (h : Gives t result structured) (hd : Declares t schema resolved)
    (ha : Agrees t structured) :
    ∃ s, Nests (unwrapOutput resolved) s ∧ s.accepts (ToolResult.unwrap structured) := by
  rcases hd.portable.readable with ⟨s, hs⟩
  have hv := h.accepts hd hs
  by_cases he : DeclaresEnvelope resolved
  . rcases (ha.iff hd).mpr he with ⟨value, hc⟩
    subst hc
    rcases he with ⟨inner, hp⟩
    rcases (hd.portable.nests hs).property hd.portable.draft hp List.lookup_cons_self with ⟨t, ht, hi⟩
    unfold unwrapOutput
    rw [hp]
    exact ⟨t, ht, hi _ value hv rfl⟩
  . have hn : ¬ ToolResult.IsEnvelope structured := by
      rw [ha.iff hd]
      exact he
    rw [unwrapOutput_of_not_declaresEnvelope he, ToolResult.unwrap_of_not_isEnvelope hn]
    exact ⟨s, hd.portable.nests hs, hv⟩

theorem responseSchema_eq {tools : List Tool} (ho : outputs? tools = some outputs) (hn : outputs ≠ []) :
    responseSchema tools = anyOf [anyOf outputs, listOf (anyOf outputs)] := by
  unfold responseSchema
  rw [ho]
  cases outputs with
  | nil => exact absurd rfl hn
  | cons first rest => rfl

/-- One schema accepts all that any of the output schemas accepts; what it accepts is a valid response. -/
theorem exists_response {tools : List Tool}
    (h : ∀ t ∈ tools, ∃ schema resolved, Declares t schema resolved) (hn : tools ≠ []) :
    ∃ one : Subschema,
      (∀ defs d, one.accepts d → validate d (responseSchema tools) defs = .ok .valid) ∧
      (∀ defs values, values ≠ [] → (∀ value ∈ values, one.accepts value) →
        validate (.list values) (responseSchema tools) defs = .ok .valid) ∧
      ∀ t ∈ tools, ∀ schema resolved, Declares t schema resolved →
        ∀ s, Nests (unwrapOutput resolved) s → ∀ d, s.accepts d → one.accepts d := by
  rcases exists_outputs h with ⟨outputs, ho, hf, hm⟩
  have ho' : outputs ≠ [] := by
    rcases List.exists_mem_of_ne_nil _ hn with ⟨t, ht⟩
    rcases h t ht with ⟨schema, resolved, hd⟩
    exact List.ne_nil_of_mem (hm t ht schema resolved hd)
  have hs : ∀ output ∈ outputs, ∃ s, Nests output s := by
    intro output hi
    rcases hf output hi with ⟨t, _, schema, resolved, hd, he⟩
    rw [he]
    exact hd.nests
  rcases nests_anyOf hs ho' with ⟨one, h1, ha⟩
  rcases nests_listOf h1 with ⟨many, (h2 : Nests (listOf (anyOf outputs)) many), hl⟩
  have hb : ∀ schema ∈ [anyOf outputs, listOf (anyOf outputs)], ∃ s, Nests schema s := by
    simp only [List.forall_mem_cons, List.not_mem_nil, false_implies, implies_true, and_true]
    exact ⟨⟨one, h1⟩, ⟨many, h2⟩⟩
  rcases nests_anyOf hb (by simp) with ⟨s, h3, hr⟩
  rw [responseSchema_eq ho ho']
  refine ⟨one, ?_, ?_, ?_⟩
  . intro defs d hd
    exact h3.validate rfl rfl defs (hr _ (by simp) one h1 d hd)
  . intro defs values hv hm
    exact h3.validate rfl rfl defs (hr _ (by simp) many h2 _ (hl values hv hm))
  . intro t ht schema resolved hd s hp
    exact ha _ (hm t ht schema resolved hd) s hp

theorem exists_values {results : List (Tool × Json)} {P : Json → Prop}
    (h : ∀ r ∈ results, ∃ value, ToolResult.value r.2 = .ok value ∧ P value) :
    ∃ values, results.mapM (fun r => ToolResult.value r.2) = .ok values ∧
      values.length = results.length ∧ ∀ value ∈ values, P value := by
  induction results with
  | nil => exact ⟨[], rfl, rfl, by simp⟩
  | cons r rest ih =>
    rw [List.forall_mem_cons] at h
    rcases h.1 with ⟨value, he, hv⟩
    rcases ih h.2 with ⟨values, hm, hl, hs⟩
    refine ⟨value :: values, ?_, ?_, ?_⟩
    . rw [List.mapM_cons, he, hm]
      rfl
    . rw [List.length_cons, List.length_cons, hl]
    . rw [List.forall_mem_cons]
      exact ⟨hv, hs⟩

theorem responseSchema_accepts (tools : List Tool)
    (h : ∀ t ∈ tools, ∃ schema resolved, Declares t schema resolved) (defs : Definitions) :
    (∀ t ∈ tools, ∀ result structured, Gives t result structured → Agrees t structured →
      ∃ value, ToolResult.value result = .ok value ∧
        validate value (responseSchema tools) defs = .ok .valid) ∧
    (∀ results : List (Tool × Json), results ≠ [] →
      (∀ r ∈ results, r.1 ∈ tools ∧ ∃ structured, Gives r.1 r.2 structured ∧ Agrees r.1 structured) →
      ∃ values, results.mapM (fun r => ToolResult.value r.2) = .ok values ∧
        validate (.list values) (responseSchema tools) defs = .ok .valid) := by
  cases tools with
  | nil =>
    constructor
    . intro t ht
      cases ht
    . intro results hn hr
      rcases List.exists_mem_of_ne_nil _ hn with ⟨r, hm⟩
      cases (hr r hm).1
  | cons first rest =>
    rcases exists_response h (by simp) with ⟨one, hv, hl, ho⟩
    have hg : ∀ t ∈ first :: rest, ∀ result structured, Gives t result structured → Agrees t structured →
        ∃ value, ToolResult.value result = .ok value ∧ one.accepts value := by
      intro t ht result structured hg ha
      rcases h t ht with ⟨schema, resolved, hd⟩
      rcases hg.unwrap hd ha with ⟨s, hs, hv⟩
      exact ⟨_, ToolResult.value_of_structured hg.succeeds hg.carries,
        ho t ht schema resolved hd s hs _ hv⟩
    constructor
    . intro t ht result structured hr ha
      rcases hg t ht result structured hr ha with ⟨value, he, ho⟩
      exact ⟨value, he, hv defs value ho⟩
    . intro results hn hr
      have hr : ∀ r ∈ results, ∃ value, ToolResult.value r.2 = .ok value ∧ one.accepts value := by
        intro r hm
        rcases hr r hm with ⟨ht, structured, hs, ha⟩
        exact hg r.1 ht r.2 structured hs ha
      rcases exists_values hr with ⟨values, hm, he, hs⟩
      refine ⟨values, hm, hl defs values ?_ hs⟩
      intro hv
      subst hv
      exact hn (List.eq_nil_of_length_eq_zero he.symm)

namespace Sample

def sum : Json := .object [
  ("properties", .object [("result", .object [("type", "integer")])]), ("required", .list ["result"]),
  ("type", "object")]

def add : Tool := ⟨"add", none, anyArguments, some sum⟩

def echo : Tool := ⟨"echo", none, anyArguments, some (.object [("type", "string")])⟩

/-- Beside the result there may be a note. -/
def notedSum : Json := .object [
  ("properties", .object [("note", .object [("type", "string")]), ("result", .object [("type", "integer")])]),
  ("required", .list ["result"]), ("type", "object")]

def addNoted : Tool := ⟨"add", none, anyArguments, some notedSum⟩

def structured (content : Json) : Json :=
  .object [("structuredContent", content)]

def eight : Json := .object [("result", 8)]

end Sample

open Tool.Sample

theorem responseSchema_accepts_catalogue :
    (∀ t ∈ [add, echo], ∃ schema resolved, Declares t schema resolved) ∧
    (Gives add (structured eight) eight ∧ Agrees add eight) ∧
    (Gives echo (structured "hi") "hi" ∧ Agrees echo "hi") ∧
    ∃ values, [(add, structured eight), (echo, structured "hi")].mapM
        (fun r => ToolResult.value r.2) = .ok values ∧
      validate (.list values) (responseSchema [add, echo]) {} = .ok .valid := by
  have hd : ∀ t ∈ [add, echo], ∃ schema resolved, Declares t schema resolved := by
    simp only [List.forall_mem_cons, List.not_mem_nil, false_implies, implies_true, and_true]
    exact ⟨⟨_, _, rfl, rfl, rfl, ⟨_, rfl⟩, rfl⟩, ⟨_, _, rfl, rfl, rfl, ⟨_, rfl⟩, rfl⟩⟩
  have h1 : Gives add (structured eight) eight := ⟨rfl, rfl, sum, rfl, rfl⟩
  have h2 : Gives echo (structured "hi") "hi" := ⟨rfl, rfl, _, rfl, rfl⟩
  have a1 : Agrees add eight := by
    constructor
    . intro _
      exact ⟨sum, rfl, _, rfl⟩
    . intro _
      exact ⟨8, rfl⟩
  have a2 : Agrees echo "hi" := by
    constructor
    . intro h
      rcases h with ⟨_, h⟩
      cases h
    . intro h
      rcases h with ⟨_, hs, _, hp⟩
      cases hs
      cases hp
  refine ⟨hd, ⟨h1, a1⟩, ⟨h2, a2⟩, ?_⟩
  apply (responseSchema_accepts [add, echo] hd {}).2 _ (by simp)
  simp only [List.forall_mem_cons, List.not_mem_nil, false_implies, implies_true, and_true]
  exact ⟨⟨by simp, _, h1, a1⟩, ⟨by simp, _, h2, a2⟩⟩

theorem responseSchema_rejects_unwrapped : ¬ ∀ (tools : List Tool),
    (∀ t ∈ tools, ∃ schema resolved, Declares t schema resolved) →
    ∀ t ∈ tools, ∀ result structured, Gives t result structured →
      ∃ value, ToolResult.value result = .ok value ∧
        validate value (responseSchema tools) {} = .ok .valid := by
  intro h
  have hd : ∀ t ∈ [addNoted], ∃ schema resolved, Declares t schema resolved := by
    simp only [List.forall_mem_cons, List.not_mem_nil, false_implies, implies_true, and_true]
    exact ⟨_, _, rfl, rfl, rfl, ⟨_, rfl⟩, rfl⟩
  rcases h [addNoted] hd addNoted (by simp) (structured eight) eight ⟨rfl, rfl, notedSum, rfl, rfl⟩ with
    ⟨value, he, hv⟩
  cases he
  cases hv

end Tool

end Turnstile
