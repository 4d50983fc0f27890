import Turnstile.Proofs.Machine.Fault
import Turnstile.Proofs.Run.Ending

/-!
This module contains what the check of a machine promises to its runs: the references in schemas that come
from no provider lead somewhere whenever an event is held against them.
-/

namespace Turnstile

namespace Machine

variable {machine : Machine} {t : Transition}

theorem mem_of_transition? {edge : Edge} (h : machine.transition? edge = some t) :
    t ∈ machine.transitions :=
  List.mem_of_find?_eq_some h

end Machine

namespace Loop

variable {E : Extension} {provide : Provide E} {l : Loop E} {work : Work} {t : Transition}
  {schema resolved : Json}

theorem check_of_start {machine : Machine} {context : Context E} {seed : Trail} {config : RunConfig}
    (h : start machine context seed config = .ok l) : machine.check = .ok () := by
  unfold start at h
  split at h
  . cases h
  . next hcheck => exact hcheck

/-- The schema that the check has seen is the one that events are held against. -/
theorem schemaFor_of_static (context : Context E) (h : t.schema.static? = some schema) :
    schemaFor provide context t = .ok schema := by
  unfold schemaFor
  cases hs : t.schema with
  | literal other =>
    rw [hs] at h
    cases h
    rfl
  | named name =>
    rw [hs] at h
    cases h
    rfl
  | provided key =>
    rw [hs] at h
    cases h

/-- What can become of an event, given the schema of its transition without references. -/
inductive Judged (resolved : Json) (work : Work) : Verdict → Prop where
  | accepted {s : Subschema} (hread : Schema.read resolved = .ok s)
    (hvalid : s.check work.event.message .root = []) : Judged resolved work .accepted
  | rejected {s : Subschema} (hread : Schema.read resolved = .ok s)
    (hinvalid : s.check work.event.message .root ≠ []) :
    Judged resolved work
      (.rejected ⟨.validation, s.check work.event.message .root, work.origin.attempt⟩)
  | unusable {reason : String} (hread : Schema.read resolved = .error reason) :
    Judged resolved work
      (.unusable
        (.ofMessage .schema (SchemaError.invalidSchema reason).message work.origin.attempt)
        (.schema work.event.edge (.invalidSchema reason)))

theorem judge_of_resolve (ht : l.machine.transition? work.event.edge = some t)
    (hstatic : t.schema.static? = some schema)
    (hresolve : l.machine.definitions.resolve schema = .ok resolved) :
    Judged resolved work (l.judge provide work) := by
  have hschema : schemaFor provide l.context t = .ok schema := schemaFor_of_static l.context hstatic
  unfold judge
  simp only [ht, hschema, validate, CompiledSchema.ofJson, hresolve, bind, Except.bind]
  cases hread : Schema.read resolved with
  | error reason => exact .unusable hread
  | ok s =>
    dsimp only [pure, Except.pure, CompiledSchema.check]
    cases hfound : s.check work.event.message .root with
    | nil => exact .accepted hread hfound
    | cons violation rest =>
      have hinvalid : s.check work.event.message .root ≠ [] := by
        rw [hfound]
        simp
      show Judged resolved work (.rejected ⟨.validation, violation :: rest, work.origin.attempt⟩)
      rw [← hfound]
      exact .rejected hread hinvalid

theorem schemaFor_ne_schema (context : Context E) (edge : Edge) (error : SchemaError) :
    schemaFor provide context t ≠ .error (.schema edge error) := by
  intro h
  unfold schemaFor at h
  split at h
  . split at h
    . cases h
    . next key _ provider _ =>
      cases hgiven : provide provider context t with
      | _ =>
        rw [hgiven] at h
        cases h
  . cases h
  . cases h

theorem edge_of_judge {failure : Failure} {edge : Edge} {error : SchemaError}
    (h : l.judge provide work = .unusable failure (.schema edge error)) : work.event.edge = edge := by
  unfold judge at h
  dsimp only at h
  split at h
  . cases h
  . split at h
    . next hschema =>
      injection h with _ h
      rw [h] at hschema
      exact absurd hschema (schemaFor_ne_schema l.context edge error)
    . split at h
      . injection h with _ h
        injection h
      . split at h
        . cases h
        . cases h

end Loop

namespace Chronicle

variable {E : Extension} {machine : Machine} {seed : Trail} {t : Transition} {schema : Json}

theorem Kept.judged {c : Chronicle E} {x : Hearing E} (kept : Kept machine seed c)
    (hcheck : machine.check = .ok ()) (hx : x ∈ c.heard)
    (ht : machine.transition? x.work.event.edge = some t) (hstatic : t.schema.static? = some schema) :
    ∃ resolved, machine.definitions.resolve schema = .ok resolved
      ∧ Loop.Judged resolved x.work x.verdict := by
  have consistent := Machine.check_eq_ok_iff.1 hcheck
  rcases consistent.schemas t (Machine.mem_of_transition? ht) schema hstatic with ⟨resolved, hresolve⟩
  refine ⟨resolved, hresolve, ?_⟩
  rw [← kept.heard_machine x hx] at ht hresolve
  exact Loop.judge_of_resolve ht hstatic hresolve

/-- A run that has failed over a schema has heard an event whose schema this was. -/
theorem Concluded.hearing_of_schema {c : Chronicle E} {edge : Edge} {error : SchemaError}
    (guarded : Guarded machine c) (concluded : Concluded c)
    (h : c.loop.result? = some (.error (.schema edge error))) :
    ∃ x ∈ c.heard, x.work.event.edge = edge
      ∧ ∃ failure, x.verdict = .unusable failure (.schema edge error) := by
  rcases concluded.result_cases guarded h with ⟨other, haction⟩ | ⟨x, hx, hends⟩
  . cases haction
  . refine ⟨x, List.mem_of_getLast? hx.last, ?_⟩
    cases hends with
    | unusable hv => exact ⟨Loop.edge_of_judge hv, _, hv⟩
    | barred hv hend hb => cases hb

/--
In a run of a machine that was checked, the schema of an event resolves whenever it comes from no provider,
whatever has happened before. The event is judged by the schema without references, and the run can fail
over the schema only if this is not a JSON Schema.
-/
theorem static_resolves {context : Context E} {config : RunConfig} {l : Loop E}
    (h : Loop.start machine context seed config = .ok l) (moves : List (Move E)) :
    let c := (begin l).playAll moves
    (∀ x ∈ c.heard, ∀ t schema, machine.transition? x.work.event.edge = some t →
      t.schema.static? = some schema →
        ∃ resolved, machine.definitions.resolve schema = .ok resolved
          ∧ Loop.Judged resolved x.work x.verdict)
    ∧ ∀ edge error t schema, c.loop.result? = some (.error (.schema edge error)) →
        machine.transition? edge = some t → t.schema.static? = some schema →
          ∃ resolved reason, machine.definitions.resolve schema = .ok resolved
            ∧ Schema.read resolved = .error reason ∧ error = .invalidSchema reason := by
  intro c
  have kept : Kept machine seed c := kept_playAll h moves
  have guarded : Guarded machine c := guarded_playAll h moves
  have concluded : Concluded c := concluded_playAll h moves
  have hcheck := Loop.check_of_start h
  constructor
  . intro x hx t schema ht hstatic
    exact kept.judged hcheck hx ht hstatic
  . intro edge error t schema hresult ht hstatic
    rcases concluded.hearing_of_schema guarded hresult with ⟨x, hx, rfl, failure, hv⟩
    rcases kept.judged hcheck hx ht hstatic with ⟨resolved, hresolve, judged⟩
    rw [hv] at judged
    cases judged with
    | unusable hread => exact ⟨resolved, _, hresolve, hread, rfl⟩

end Chronicle

/-!
A run whose first event is held against a built-in definition and whose second one against a definition of the
machine that is not a JSON Schema.
-/

namespace Sample

def doubtful : Machine :=
  { Machine.new "gate" "2" with schemas := .ofList [("odd", .object [("type", .bool true)])] }
    |>.addState { State.new ⟨"work"⟩ with action := some "act" }
    |>.addTransition { Transition.new .start ⟨"work"⟩ with schema := .named "text" }
    |>.addTransition { Transition.new ⟨"work"⟩ .final with
      schema := .literal (.object [("items", .object [("$ref", "#/$defs/odd")])]) }

def doubtfulMoves : List (Move extension) :=
  [.arrive (.new entering.edge "begin"), .take provide, .settle (.ok (context, .emit leaving)), .emit,
    .emit, .take provide]

def doubtfulRun : Chronicle extension :=
  (Chronicle.begin ⟨doubtful, 3, context, [], [], .waiting⟩).playAll doubtfulMoves

end Sample

namespace Chronicle

theorem static_resolves_doubtful :
    Sample.doubtfulRun.heard.length = 2
    ∧ ∃ error, Sample.doubtfulRun.loop.result? = some (.error (.schema Sample.leaving.edge error))
      ∧ ∃ reason, error = .invalidSchema reason := by
  have hstart : Loop.start Sample.doubtful Sample.context [] .standard
      = .ok ⟨Sample.doubtful, 3, Sample.context, [], [], .waiting⟩ := by rfl
  rcases static_resolves hstart Sample.doubtfulMoves with ⟨_, hfails⟩
  have hresult : ∃ error,
      Sample.doubtfulRun.loop.result? = some (.error (.schema Sample.leaving.edge error)) := ⟨_, rfl⟩
  rcases hresult with ⟨error, hresult⟩
  rcases hfails _ error _ _ hresult rfl rfl with ⟨_, reason, _, _, herror⟩
  exact ⟨by rfl, error, hresult, reason, herror⟩

end Chronicle

end Turnstile
