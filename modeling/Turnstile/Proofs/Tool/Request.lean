import Turnstile.Proofs.Schema.Choice
import Turnstile.Tool.Schema

/-!
This module contains what the schema of requests accepts: the calls of the tools in a catalogue, each with
arguments that are valid under the schema of its tool, and lists of such calls.
-/

namespace Turnstile

open Schema

namespace Tool

section Calls

variable {refer : String → Except String Subschema} {expand : Json → Except SchemaError Json}
  {name : String} {arguments d : Json}

def argumentsOf (name : String) (arguments : Json) : List (String × Json) :=
  [("arguments", arguments), ("name", .object [("const", .string name)])]

def membersOf (name : String) (arguments : Json) : List (String × Json) :=
  [("properties", .object (argumentsOf name arguments)), ("required", .list ["name", "arguments"]),
    ("type", "object")]

/-- Objects with this name, and with arguments that the schema accepts. -/
def callOf (name : String) (arguments : Json) : Json :=
  .object (membersOf name arguments)

theorem callSchema_eq (t : Tool) : callSchema t = callOf t.name (standalone t.inputSchema) := rfl

theorem compileEntries_argumentsOf (refer : String → Except String Subschema) (name : String)
    (arguments : Json) :
    ∃ named : Subschema, named.check = .all [.const (.string name)] ∧
      compileEntries refer .latest (argumentsOf name arguments) =
        (fun s => [("arguments", s), ("name", named)]) <$> compile refer .latest arguments := by
  have hn : ∃ named : Subschema, named.check = .all [.const (.string name)] ∧
      compile refer .latest (.object [("const", .string name)]) = .ok named := ⟨_, rfl, rfl⟩
  rcases hn with ⟨named, hk, hn⟩
  refine ⟨named, hk, ?_⟩
  unfold argumentsOf compileEntries compileEntries
  rw [hn]
  cases compile refer .latest arguments <;> rfl

theorem compile_callOf (refer : String → Except String Subschema) (name : String) (arguments : Json) :
    ∃ coverage, compile refer .latest (callOf name arguments) =
      (fun s => ⟨.all [
        .properties [("arguments", s.check), ("name", .all [.const (.string name)])],
        .required ["name", "arguments"],
        .type .latest [.object]], coverage⟩) <$> compile refer .latest arguments := by
  rcases compileEntries_argumentsOf refer name arguments with ⟨named, hk, he⟩
  -- Only the arguments can fail to be read, so that they stand for the whole.
  rw [← hk]
  generalize compile refer .latest arguments = item at *
  have hm : compileMembers refer .latest (membersOf name arguments) =
      [("properties", .named ((fun s => [("arguments", s), ("name", named)]) <$> item)),
        ("required", .plain), ("type", .plain)] := by
    rw [← he]
    rfl
  have hd : Draft.ofSchema? .latest (callOf name arguments) = some .latest := rfl
  unfold callOf compile at *
  dsimp only
  rw [hd, Option.getD_some, hm]
  cases item with
  | error e => exact ⟨.none, rfl⟩
  | ok s => exact ⟨_, rfl⟩

theorem readable_callOf_iff : Readable refer (callOf name arguments) ↔ Readable refer arguments := by
  rcases compile_callOf refer name arguments with ⟨coverage, hc⟩
  unfold Readable
  rw [hc, exists_map_eq_ok_iff]

theorem accepts_const_iff : (Checker.all [.const (.string name)]).accepts d ↔ d = .string name := by
  rw [Checker.accepts_all_iff, List.forall_mem_singleton]
  unfold Checker.const
  rw [Checker.accepts_keyword_iff]
  cases d with
  | string other =>
    show (name == other) = true ↔ _
    rw [beq_iff_eq, Json.string.injEq, eq_comm]
  | _ => simp [Checker.matchesConst, Json.equivalent, Json.matchesUpTo]

theorem accepts_callOf_iff {c : Checker} (h : c.Uniform) :
    (Checker.all [
      .properties [("arguments", c), ("name", .all [.const (.string name)])],
      .required ["name", "arguments"],
      .type .latest [.object]]).accepts d ↔
      d.get? "name" = some (.string name) ∧ ∃ value, d.get? "arguments" = some value ∧ c.accepts value := by
  have hu : Checker.Named.Uniform [("arguments", c), ("name", .all [.const (.string name)])] := by
    unfold Checker.Named.Uniform
    simp only [List.forall_mem_cons, List.not_mem_nil, false_implies, implies_true, and_true]
    refine ⟨h, Checker.uniform_all ?_⟩
    rw [List.forall_mem_singleton]
    exact Checker.uniform_keyword
  rw [Checker.accepts_all_iff]
  simp only [List.forall_mem_cons, List.not_mem_nil, false_implies, implies_true, and_true]
  rw [accepts_properties_iff hu, accepts_type_object_iff]
  simp only [List.forall_mem_cons, List.not_mem_nil, false_implies, implies_true, and_true,
    accepts_const_iff]
  constructor
  . intro ⟨⟨ha, hn⟩, hq, members, ho⟩
    subst ho
    rw [accepts_required_iff, List.forall_mem_cons, List.forall_mem_singleton] at hq
    rcases hq with ⟨⟨other, ho⟩, value, hv⟩
    rw [hn other ho] at ho
    exact ⟨ho, value, hv, ha value hv⟩
  . intro ⟨hn, value, hv, ha⟩
    rcases Members.exists_member hv with ⟨members, hd, _⟩
    subst hd
    rw [accepts_required_iff, List.forall_mem_cons, List.forall_mem_singleton]
    refine ⟨⟨?_, ?_⟩, ⟨⟨_, hn⟩, value, hv⟩, members, rfl⟩
    . intro other ho
      cases hv.symm.trans ho
      exact ha
    . intro other ho
      cases hn.symm.trans ho
      rfl

theorem admits_callOf_iff (hr : UniformRefer refer) :
    Admits refer (callOf name arguments) d ↔
      d.get? "name" = some (.string name) ∧
        ∃ value, d.get? "arguments" = some value ∧ Admits refer arguments value := by
  rcases compile_callOf refer name arguments with ⟨coverage, hc⟩
  cases hs : compile refer .latest arguments with
  | error e =>
    -- Arguments that cannot be read admit nothing, and neither does the call around them.
    have hn : ¬ Readable refer arguments := by
      intro ⟨s, h⟩
      cases hs.symm.trans h
    constructor
    . intro ha
      exact absurd (readable_callOf_iff.mp ha.readable) hn
    . intro ⟨_, value, _, ha⟩
      exact absurd ha.readable hn
  | ok s =>
    rw [hs] at hc
    simp only [admits_iff hs, admits_iff hc]
    exact accepts_callOf_iff (uniform_compile hr hs)

theorem conforms_callOf : conforms .latest (callOf name arguments) = conforms .latest arguments := by
  show (true && true && ((conforms .latest arguments && (true && true)) && (true && true))) =
    conforms .latest arguments
  simp

theorem inlineMembers_membersOf :
    inlineMembers expand (membersOf name arguments) =
      membersOf name <$> Schema.inline expand arguments := by
  have he : inlineEntries expand (argumentsOf name arguments) =
      argumentsOf name <$> Schema.inline expand arguments := by
    unfold argumentsOf inlineEntries
    cases Schema.inline expand arguments <;> rfl
  show (do
    let inlined ← Json.object <$> inlineEntries expand (argumentsOf name arguments)
    return ("properties", inlined) ::
      [("required", .list ["name", "arguments"]), ("type", "object")]) = _
  rw [he]
  cases Schema.inline expand arguments <;> rfl

theorem inline_callOf :
    Schema.inline expand (callOf name arguments) = callOf name <$> Schema.inline expand arguments := by
  show join expand (membersOf name arguments) (inlineMembers expand (membersOf name arguments)) = _
  rw [inlineMembers_membersOf]
  cases Schema.inline expand arguments <;> rfl

end Calls

section Requests

variable {refer : String → Except String Subschema} {expand : Json → Except SchemaError Json}
  {calls : List Json} {d : Json}

/-- Exactly one of the calls, or a list of documents each of which is. -/
def requestOf (calls : List Json) : Json :=
  singleOrList (oneOf calls)

theorem requestOf_eq : requestOf calls = anyOf [oneOf calls, listOf (oneOf calls)] := rfl

/-- The document fits one of the choices only, or it is a list, not empty, of documents that do. -/
def Requests (fits : α → Json → Prop) (choices : List α) (d : Json) : Prop :=
  ExactlyOne (fits · d) choices ∨
    ∃ values, d = .list values ∧ values ≠ [] ∧ ∀ value ∈ values, ExactlyOne (fits · value) choices

/-- A document, or one of its items. -/
def ElementOf (d x : Json) : Prop :=
  x = d ∨ ∃ values, d = .list values ∧ x ∈ values

theorem requests_congr {fits : α → Json → Prop} {other : β → Json → Prop} {choices : List α}
    {others : List β}
    (h : ∀ x, ElementOf d x → (ExactlyOne (fits · x) choices ↔ ExactlyOne (other · x) others)) :
    Requests fits choices d ↔ Requests other others d := by
  unfold Requests
  rw [h d (.inl rfl)]
  apply or_congr_right
  apply exists_congr
  intro values
  apply and_congr_right
  intro hd
  apply and_congr_right
  intro _
  apply forall₂_congr
  intro x hx
  exact h x (.inr ⟨values, hd, hx⟩)

theorem not_requests_nil {fits : α → Json → Prop} : ¬ Requests fits [] d := by
  intro h
  rcases h with h | ⟨values, _, hn, hv⟩
  . exact exactlyOne_nil h
  . rcases List.exists_mem_of_ne_nil _ hn with ⟨value, hm⟩
    exact exactlyOne_nil (hv value hm)

theorem readable_requestOf_iff :
    Readable refer (requestOf calls) ↔ ∀ call ∈ calls, Readable refer call := by
  rw [requestOf_eq, readable_anyOf_iff, List.forall_mem_cons, List.forall_mem_singleton]
  unfold oneOf
  rw [readable_listOf_iff, and_self]
  exact readable_oneOf_iff

theorem admits_requestOf_iff (hr : UniformRefer refer) (h : ∀ call ∈ calls, Readable refer call) :
    Admits refer (requestOf calls) d ↔ Requests (Admits refer) calls d := by
  have ho : Readable refer (oneOf calls) := readable_oneOf_iff.mpr h
  have hb : ∀ schema ∈ [oneOf calls, listOf (oneOf calls)], Readable refer schema := by
    rw [List.forall_mem_cons, List.forall_mem_singleton]
    exact ⟨ho, readable_listOf_iff.mpr ho⟩
  have hl : Admits refer (listOf (oneOf calls)) d ↔
      ∃ values, d = .list values ∧ values ≠ [] ∧ ∀ value ∈ values, Admits refer (oneOf calls) value :=
    admits_listOf_iff hr ho
  rw [requestOf_eq, admits_anyOf_iff hb]
  simp only [List.mem_cons, List.not_mem_nil, or_false, exists_eq_or_imp, exists_eq_left]
  rw [hl]
  simp only [admits_oneOf_iff h]
  rfl

theorem conforms_requestOf_iff (hn : calls ≠ []) :
    conforms .latest (requestOf calls) ↔ ∀ call ∈ calls, conforms .latest call := by
  rw [requestOf_eq, conforms_anyOf_iff (by simp), List.forall_mem_cons, List.forall_mem_singleton,
    conforms_listOf_iff, and_self, conforms_oneOf_iff hn]

theorem inline_requestOf :
    Schema.inline expand (requestOf calls) = requestOf <$> calls.mapM (Schema.inline expand) := by
  have hl : Schema.inline expand (listOf (oneOf calls)) =
      listOf <$> Schema.inline expand (oneOf calls) := inline_listOf
  rw [requestOf_eq, inline_anyOf, List.mapM_cons, List.mapM_cons, hl, inline_oneOf]
  cases calls.mapM (Schema.inline expand) <;> rfl

end Requests

variable {tools : List Tool} {defs : Definitions} {d : Json}

/-- The input schema of a tool as it is in the schema of requests once this has been resolved. -/
def inlined (defs : Definitions) (t : Tool) : Except SchemaError Json :=
  Schema.inline (defs.expand (defs.depthLimit + 1) []) (standalone t.inputSchema)

def callFor (defs : Definitions) (t : Tool) : Except SchemaError Json :=
  callOf t.name <$> inlined defs t

theorem resolve_requestSchema (h : tools ≠ []) :
    defs.resolve (requestSchema tools) = requestOf <$> tools.mapM (callFor defs) := by
  have hs : requestSchema tools = requestOf (tools.map callSchema) := by
    unfold requestSchema
    rw [if_neg (by simpa using h)]
    rfl
  have hr : defs.resolve (requestOf (tools.map callSchema)) =
      Schema.inline (defs.expand (defs.depthLimit + 1) []) (requestOf (tools.map callSchema)) := rfl
  rw [hs, hr, inline_requestOf, List.mapM_map]
  congr 2
  funext t
  rw [Function.comp_apply, callSchema_eq]
  exact inline_callOf

/-- The schema of requests can be used with these definitions. -/
def Requestable (defs : Definitions) (tools : List Tool) : Prop :=
  ∃ compiled, CompiledSchema.ofJson (requestSchema tools) defs = .ok compiled

/-- Where references lead that are left in the schema of requests. -/
def leads (calls : List Json) : String → Except String Subschema :=
  follow (requestOf calls) .latest (128 * (requestOf calls).compact.length) []

theorem read_requestOf (calls : List Json) :
    read (requestOf calls) =
      if conforms .latest (requestOf calls) then compile (leads calls) .latest (requestOf calls)
      else .error "the schema does not have the form that its draft asks for" := rfl

theorem compile_of_read_requestOf {calls : List Json} {s : Subschema} (h : read (requestOf calls) = .ok s) :
    compile (leads calls) .latest (requestOf calls) = .ok s := by
  rw [read_requestOf] at h
  split at h
  . exact h
  . cases h

theorem exists_read_requestOf_iff {calls : List Json} (hn : calls ≠ []) :
    (∃ s, read (requestOf calls) = .ok s) ↔
      ∀ call ∈ calls, conforms .latest call ∧ Readable (leads calls) call := by
  rw [read_requestOf, forall₂_and, ← conforms_requestOf_iff hn, ← readable_requestOf_iff]
  split
  . next hf => simp [hf, Readable]
  . next hf => simp [hf]

theorem exists_ofJson_iff {schema : Json} :
    (∃ compiled, CompiledSchema.ofJson schema defs = .ok compiled) ↔
      ∃ resolved, defs.resolve schema = .ok resolved ∧ ∃ s, read resolved = .ok s := by
  unfold CompiledSchema.ofJson
  cases defs.resolve schema with
  | error e => simp [bind, Except.bind]
  | ok resolved =>
    cases h : read resolved with
    | error reason => simp [bind, Except.bind, h]
    | ok s => simp [bind, Except.bind, h, pure, Except.pure]

theorem requestable_iff (h : tools ≠ []) :
    Requestable defs tools ↔ ∃ calls, tools.mapM (callFor defs) = .ok calls ∧
      ∀ call ∈ calls, conforms .latest call ∧ Readable (leads calls) call := by
  unfold Requestable
  rw [exists_ofJson_iff, resolve_requestSchema h]
  have hn : ∀ calls, tools.mapM (callFor defs) = .ok calls → calls ≠ [] := by
    intro calls hc hnil
    rw [mapM_eq_ok_iff] at hc
    have := hc.length_eq
    simp_all
  constructor
  . intro ⟨resolved, hr, hs⟩
    rcases map_eq_ok hr with ⟨calls, hc, he⟩
    subst he
    exact ⟨calls, hc, (exists_read_requestOf_iff (hn calls hc)).mp hs⟩
  . intro ⟨calls, hc, hs⟩
    refine ⟨requestOf calls, ?_, (exists_read_requestOf_iff (hn calls hc)).mpr hs⟩
    rw [hc]
    rfl

/-- A call of the tool, with arguments that the schema of the tool admits. -/
def Takes (defs : Definitions) (refer : String → Except String Subschema) (t : Tool) (d : Json) : Prop :=
  d.get? "name" = some (.string t.name) ∧
    ∃ arguments value, inlined defs t = .ok arguments ∧ d.get? "arguments" = some value ∧
      Admits refer arguments value

theorem takes_iff {refer : String → Except String Subschema} {call : Json} (hr : UniformRefer refer)
    (h : callFor defs t = .ok call) : Takes defs refer t d ↔ Admits refer call d := by
  rcases map_eq_ok h with ⟨arguments, ha, hc⟩
  subst hc
  rw [admits_callOf_iff hr]
  unfold Takes
  simp [ha]

theorem requests_iff {refer : String → Except String Subschema} {calls : List Json} (hr : UniformRefer refer)
    (h : tools.mapM (callFor defs) = .ok calls) :
    Requests (Takes defs refer) tools d ↔ Requests (Admits refer) calls d := by
  apply requests_congr
  intro x _
  apply exactlyOne_of_forall₂ (mapM_eq_ok_iff.mp h)
  intro t call hc
  exact takes_iff hr hc

theorem validate_requestSchema_nil (defs : Definitions) (d : Json) :
    ∃ violations, validate d (requestSchema []) defs = .ok (.invalid violations) := ⟨_, rfl⟩

theorem isValid_iff {v : Validation} : v.isValid ↔ v = .valid := by
  cases v <;> simp [Validation.isValid]

/-- If the schema of requests can be used, it is valid exactly for requests. -/
theorem Requestable.verdict (h : Requestable defs tools) :
    ∃ refer, ∀ d, ∃ v, validate d (requestSchema tools) defs = .ok v ∧
      (v.isValid ↔ Requests (Takes defs refer) tools d) := by
  by_cases hn : tools = []
  . subst hn
    refine ⟨fun _ => .error "", ?_⟩
    intro d
    rcases validate_requestSchema_nil defs d with ⟨violations, hv⟩
    exact ⟨_, hv, by simp [Validation.isValid, not_requests_nil]⟩
  . rcases exists_ofJson_iff.mp h with ⟨resolved, hr, s, hs⟩
    have hq := hr
    rw [resolve_requestSchema hn] at hq
    rcases map_eq_ok hq with ⟨calls, hc, he⟩
    subst he
    have hu : UniformRefer (leads calls) := uniform_follow _ _ _ _
    have hs' := compile_of_read_requestOf hs
    refine ⟨leads calls, fun d => ⟨_, validate_eq hr hs, ?_⟩⟩
    rw [isValid_ofViolations, ← admits_iff hs', requests_iff hu hc]
    apply admits_requestOf_iff hu
    exact readable_requestOf_iff.mp ⟨s, hs'⟩

/-- The input schema of the tool has a place in the schema of requests. -/
def Usable (defs : Definitions) (t : Tool) : Prop :=
  ∃ arguments s, inlined defs t = .ok arguments ∧ Nests arguments s

theorem Usable.callFor (h : Usable defs t) :
    ∃ call, callFor defs t = .ok call ∧ conforms .latest call ∧ ∀ refer, Readable refer call := by
  rcases h with ⟨arguments, s, ha, hs⟩
  refine ⟨callOf t.name arguments, ?_, ?_, ?_⟩
  . unfold Tool.callFor
    rw [ha]
    rfl
  . rw [conforms_callOf]
    exact hs.form
  . intro refer
    rw [readable_callOf_iff]
    exact ⟨s, hs.compile refer⟩

theorem usable_of_callFor {refer : String → Except String Subschema} {call : Json}
    (hb : ∀ arguments, inlined defs t = .ok arguments → isBare arguments)
    (hc : callFor defs t = .ok call) (hf : conforms .latest call) (hr : Readable refer call) :
    Usable defs t := by
  rcases map_eq_ok hc with ⟨arguments, ha, he⟩
  subst he
  rw [conforms_callOf] at hf
  rcases readable_callOf_iff.mp hr with ⟨s, hs⟩
  refine ⟨arguments, s, ha, hf, hb _ ha, ?_⟩
  intro other
  rw [← hs]
  exact compile_congr (hb _ ha)

/-- Without references that are left over, each tool has to be usable for itself. -/
theorem requestable_iff_usable
    (hb : ∀ t ∈ tools, ∀ arguments, inlined defs t = .ok arguments → isBare arguments) :
    Requestable defs tools ↔ ∀ t ∈ tools, Usable defs t := by
  by_cases hn : tools = []
  . subst hn
    constructor
    . intro _ t ht
      cases ht
    . intro _
      exact ⟨_, rfl⟩
  . rw [requestable_iff hn]
    constructor
    . intro ⟨calls, hc, hs⟩ t ht
      rcases exists_of_mem_mapM hc t ht with ⟨call, hm, he⟩
      exact usable_of_callFor (hb t ht) he (hs call hm).1 (hs call hm).2
    . intro h
      have hc : ∃ calls, tools.mapM (callFor defs) = .ok calls := by
        rw [exists_mapM_iff]
        intro t ht
        rcases (h t ht).callFor with ⟨call, hc, _⟩
        exact ⟨call, hc⟩
      rcases hc with ⟨calls, hc⟩
      refine ⟨calls, hc, ?_⟩
      intro call hm
      rcases exists_of_mapM_eq_ok hc call hm with ⟨t, ht, he⟩
      rcases (h t ht).callFor with ⟨other, ho, hf, hr⟩
      cases he.symm.trans ho
      exact ⟨hf, hr _⟩

/--
The input schema of the tool resolves on its own to the given one, which is a schema of the latest draft and
has no reference.
-/
structure Expects (t : Tool) (resolved : Json) : Prop where
  resolves : Definitions.resolve {} t.inputSchema = .ok resolved
  bare : isBare resolved
  form : conforms .latest resolved
  readable : ∃ s, read resolved = .ok s

theorem Expects.inlined (h : Expects t resolved) (defs : Definitions) : inlined defs t = .ok resolved := by
  unfold Tool.inlined standalone
  rw [h.resolves]
  exact inline_of_isBare h.bare

theorem Expects.isBare_of_inlined {arguments : Json} (h : Expects t resolved)
    (ha : Tool.inlined defs t = .ok arguments) : isBare arguments := by
  cases (h.inlined defs).symm.trans ha
  exact h.bare

theorem Expects.usable (h : Expects t resolved) (defs : Definitions) : Usable defs t := by
  rcases h.readable with ⟨s, hs⟩
  exact ⟨resolved, s, h.inlined defs, nests_of_read h.form h.bare hs⟩

/-- A call of the tool, with arguments that are valid under its input schema. -/
def Calls (t : Tool) (d : Json) : Prop :=
  d.get? "name" = some (.string t.name) ∧
    ∃ value, d.get? "arguments" = some value ∧ validate value t.inputSchema {} = .ok .valid

theorem Expects.takes_iff {refer : String → Except String Subschema} (h : Expects t resolved) :
    Takes defs refer t d ↔ Calls t d := by
  rcases h.readable with ⟨s, hs⟩
  have hn := nests_of_read h.form h.bare hs
  have hv : ∀ value, Admits refer resolved value ↔ validate value t.inputSchema {} = .ok .valid := by
    intro value
    rw [admits_iff (hn.compile refer), validate_eq_valid_iff h.resolves hs]
  unfold Takes Calls
  simp [h.inlined, hv]

theorem Expects.resolve_congr (h : ∀ t ∈ tools, ∃ resolved, Expects t resolved) (hn : tools ≠ [])
    (defs other : Definitions) :
    defs.resolve (requestSchema tools) = other.resolve (requestSchema tools) := by
  rw [resolve_requestSchema hn, resolve_requestSchema hn]
  congr 1
  apply mapM_congr
  intro t ht
  rcases h t ht with ⟨resolved, he⟩
  unfold callFor
  rw [he.inlined, he.inlined]

theorem Expects.requestable (h : ∀ t ∈ tools, ∃ resolved, Expects t resolved) (defs : Definitions) :
    Requestable defs tools := by
  rw [requestable_iff_usable]
  . intro t ht
    rcases h t ht with ⟨resolved, he⟩
    exact he.usable defs
  . intro t ht arguments ha
    rcases h t ht with ⟨resolved, he⟩
    exact he.isBare_of_inlined ha

/--
Whatever definitions there are around it, the schema of requests accepts the documents that are a call of
exactly one tool, and the lists of such documents. Where there are no tools it accepts nothing.
-/
theorem requestSchema_accepts (tools : List Tool) (h : ∀ t ∈ tools, ∃ resolved, Expects t resolved)
    (d : Json) (defs other : Definitions) :
    validate d (requestSchema tools) defs = validate d (requestSchema tools) other ∧
    ∃ v, validate d (requestSchema tools) defs = .ok v ∧
      (v = .valid ↔ Requests Calls tools d) ∧ (tools = [] → v ≠ .valid) := by
  constructor
  . by_cases hn : tools = []
    . subst hn
      rfl
    . unfold validate CompiledSchema.ofJson
      rw [Expects.resolve_congr h hn defs other]
  . rcases (Expects.requestable h defs).verdict with ⟨refer, hv⟩
    rcases hv d with ⟨v, hv, hd⟩
    have hc : Requests (Takes defs refer) tools d ↔ Requests Calls tools d := by
      apply requests_congr
      intro x _
      apply exactlyOne_congr
      intro t ht
      rcases h t ht with ⟨resolved, he⟩
      exact he.takes_iff
    rw [isValid_iff, hc] at hd
    refine ⟨v, hv, hd, ?_⟩
    intro hn
    subst hn
    rw [Ne, hd]
    exact not_requests_nil

namespace Sample

def length : Tool :=
  ⟨"length", none, .object [
    ("$defs", .object [("unit", .object [("type", "string")])]),
    ("properties", .object [("unit", .object [("$ref", "#/$defs/unit")])])], none⟩

def ping : Tool :=
  ⟨"ping", none, anyArguments, none⟩

def inMetres : Json :=
  .object [("arguments", .object [("unit", "m")]), ("name", "length")]

/-- Definitions with another meaning for a name that a tool defines. -/
def units : Definitions :=
  .ofList [("unit", .object [("type", "number")])]

end Sample

open Tool.Sample

theorem requestSchema_accepts_metres :
    (∀ t ∈ [length, ping], ∃ resolved, Expects t resolved) ∧
    Requests Calls [length, ping] inMetres ∧
    validate inMetres (requestSchema [length, ping]) units = .ok .valid ∧
    validate inMetres (requestSchema [length, ping]) {} = .ok .valid := by
  have he : ∀ t ∈ [length, ping], ∃ resolved, Expects t resolved := by
    simp only [List.forall_mem_cons, List.not_mem_nil, false_implies, implies_true, and_true]
    exact ⟨⟨_, rfl, rfl, rfl, ⟨_, rfl⟩⟩, ⟨_, rfl, rfl, rfl, ⟨_, rfl⟩⟩⟩
  have hr : Requests Calls [length, ping] inMetres := by
    left
    have h : Calls length inMetres := ⟨rfl, _, rfl, rfl⟩
    rw [exactlyOne_cons_of_pos (P := (Calls · inMetres)) h, List.forall_mem_singleton]
    intro h
    exact absurd h.1 (by decide)
  rcases requestSchema_accepts [length, ping] he inMetres units {} with ⟨hc, v, hv, ha, _⟩
  rw [ha.mpr hr] at hv
  exact ⟨he, hr, hv, hc.symm.trans hv⟩

end Tool

end Turnstile
