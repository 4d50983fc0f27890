import Turnstile.Proofs.Run.Conservation

/-!
This module contains what guards the entry into states: an action is only ever invoked for an event that was
found valid when it was taken off the queue, and each event leads to one invocation unless it ends the run.
-/

namespace Turnstile

namespace Loop

variable {E : Extension}

inductive Demands (provide : Provide E) (context : Context E) (t : Transition) : Json → Prop where
  | fixed {schema : Json} (h : t.schema.static? = some schema) : Demands provide context t schema
  | provided {key : String} {provider : Provider E} {schema : Json} (hkey : t.schema = .provided key)
    (hprovider : context.provider? key = some provider) (h : provide provider context t = .ok schema) :
    Demands provide context t schema

theorem schemaFor_eq_ok_iff {provide : Provide E} {context : Context E} {t : Transition}
    {schema : Json} :
    schemaFor provide context t = .ok schema ↔ Demands provide context t schema := by
  constructor
  . intro h
    unfold schemaFor at h
    split at h
    . next key hkey =>
      split at h
      . cases h
      . next provider hprovider =>
        refine .provided hkey hprovider ?_
        cases hgiven : provide provider context t with
        | error e =>
          rw [hgiven] at h
          cases h
        | ok given =>
          rw [hgiven] at h
          injection h with h
          rw [h]
    . next given hgiven =>
      injection h with h
      subst h
      exact .fixed (by rw [hgiven]; rfl)
    . next name hname =>
      injection h with h
      subst h
      exact .fixed (by rw [hname]; rfl)
  . intro h
    unfold schemaFor
    cases h with
    | fixed h =>
      cases hsource : t.schema with
      | provided key => simp [hsource, SchemaSource.static?] at h
      | literal given | named name =>
        rw [hsource] at h
        injection h with h
        subst h
        rfl
    | provided hkey hprovider h =>
      rw [hkey]
      dsimp only
      rw [hprovider]
      dsimp only
      rw [h]
      rfl

end Loop

namespace Hearing

variable {E : Extension}

/-- The message was found valid against the schema of the transition that the event names. -/
def Valid (machine : Machine) (x : Hearing E) : Prop :=
  ∃ t schema, machine.transition? x.work.event.edge = some t
    ∧ Loop.Demands x.provide x.loop.context t schema
    ∧ validate x.work.event.message schema machine.definitions = .ok .valid

theorem verdict_eq_accepted_iff (x : Hearing E) :
    x.verdict = .accepted ↔ x.Valid x.loop.machine := by
  unfold verdict Valid Loop.judge
  dsimp only
  cases ht : x.loop.machine.transition? x.work.event.edge with
  | none => simp
  | some t =>
    cases hs : Loop.schemaFor x.provide x.loop.context t with
    | error error =>
      have hno : ∀ schema, ¬ Loop.Demands x.provide x.loop.context t schema := by
        intro schema hdemands
        rw [← Loop.schemaFor_eq_ok_iff, hs] at hdemands
        cases hdemands
      simp [hs, hno]
    | ok schema =>
      have hone : ∀ other, Loop.Demands x.provide x.loop.context t other ↔ schema = other := by
        intro other
        rw [← Loop.schemaFor_eq_ok_iff, hs, Except.ok.injEq]
      cases hv : validate x.work.event.message schema x.loop.machine.definitions with
      | error error => simp [hs, hone, hv]
      | ok validation =>
        cases validation with
        | valid => simp [hs, hone, hv, Validation.isValid]
        | invalid violations => simp [hs, hone, hv, Validation.isValid]

end Hearing

namespace Chronicle

variable {E : Extension} {machine : Machine} {seed : Trail} {c d : Chronicle E} {move : Move E}
  {v w : Visit E}

/-- The state was entered with an event that had been accepted, and whose record can be seen. -/
def Entered (machine : Machine) (c : Chronicle E) (v : Visit E) : Prop :=
  Loop.Invokes machine v.loop.context v.invocation.state.id v.invocation
  ∧ ∃ x, c.heard[v.entering]? = some x
    ∧ x.verdict = .accepted
    ∧ v.invocation.event = x.work.event
    ∧ v.invocation.state.id = x.work.event.edge.target
    ∧ x.record ∈ v.loop.trail

/-- An event says truly which invocation it comes from. -/
def Traced (c : Chronicle E) (s : Dispatch) : Prop :=
  match s.sender with
  | none => s.work.origin = .external
  | some n => ∃ v, c.visits[n]? = some v ∧ s.work.origin = .action v.provenance

/-- The visit answers the event that has caused it: it enters its target or goes back to its sender. -/
def Answers (c : Chronicle E) (v : Visit E) : Prop :=
  ∃ x, c.heard[v.cause]? = some x
    ∧ ((x.verdict = .accepted ∧ v.entering = v.cause)
      ∨ (x.verdict ≠ .accepted
        ∧ ∃ w, c.sender? v.cause = some w
          ∧ v.entering = w.entering
          ∧ v.invocation.event = w.invocation.event
          ∧ v.invocation.state = w.invocation.state))

/-- The last visit is the one that the loop is busy with. -/
def Busy (c : Chronicle E) : Prop :=
  match c.loop.phase with
  | .invoking i => ∃ v, c.visits.getLast? = some v
      ∧ v.invocation = i ∧ v.loop.trail = c.loop.trail ∧ v.loop.context = c.loop.context
  | .emitting p _ => ∃ v, c.visits.getLast? = some v ∧ v.provenance = p
  | _ => True

/-- Each event was answered with a visit, but for one that has ended the run. -/
def Answered (c : Chronicle E) : Prop :=
  c.heard.length = c.visits.length
  ∨ (c.heard.length = c.visits.length + 1 ∧ ∃ result, c.loop.phase = .finished result)

structure Guarded (machine : Machine) (c : Chronicle E) : Prop where
  entered : ∀ v ∈ c.visits, Entered machine c v
  traced : ∀ s ∈ c.sent, Traced c s
  answers : ∀ v ∈ c.visits, Answers c v
  cause : ∀ (n : Nat) (v : Visit E), c.visits[n]? = some v → v.cause = n
  busy : Busy c
  answered : Answered c

structure Extends (c d : Chronicle E) : Prop where
  sent : c.sent <+: d.sent
  heard : c.heard <+: d.heard
  visits : c.visits <+: d.visits

theorem Course.extends (course : Course c move d) : Extends c d := by
  cases course with
  | arrive | emit => exact ⟨List.prefix_append _ _, List.prefix_refl _, List.prefix_refl _⟩
  | hear => exact ⟨List.prefix_refl _, List.prefix_append _ _, List.prefix_append _ _⟩
  | _ => exact ⟨List.prefix_refl _, List.prefix_refl _, List.prefix_refl _⟩

theorem getElem?_prefix_mono {α : Type} {a b : List α} {n : Nat} {x : α} (h : a <+: b)
    (hx : a[n]? = some x) : b[n]? = some x := by
  have hn : n < a.length := by
    rcases List.getElem?_eq_some_iff.1 hx with ⟨hn, _⟩
    exact hn
  rcases h with ⟨rest, rfl⟩
  rw [List.getElem?_append_left hn]
  exact hx

theorem getElem?_concat_cases {α : Type} {a : List α} {n : Nat} {x y : α} (h : (a ++ [x])[n]? = some y) :
    a[n]? = some y ∨ (n = a.length ∧ y = x) := by
  by_cases hn : n < a.length
  . rw [List.getElem?_append_left hn] at h
    exact .inl h
  . have hlast := (List.getElem?_eq_some_iff.1 h).1
    rw [List.length_append, List.length_singleton] at hlast
    have hn : n = a.length := by omega
    subst hn
    rw [List.getElem?_concat_length] at h
    injection h with h
    exact .inr ⟨rfl, h.symm⟩

theorem sender?_of_extends {n : Nat} (h : Extends c d) (hv : c.sender? n = some v) :
    d.sender? n = some v := by
  unfold sender? at hv ⊢
  rw [Option.bind_eq_some_iff] at hv
  rcases hv with ⟨m, hm, hv⟩
  rw [Option.bind_eq_some_iff] at hm
  rcases hm with ⟨s, hs, hm⟩
  rw [getElem?_prefix_mono h.sent hs, Option.bind_some, hm, Option.bind_some]
  exact getElem?_prefix_mono h.visits hv

theorem Entered.mono (h : Extends c d) (hv : Entered machine c v) : Entered machine d v := by
  rcases hv with ⟨hinvokes, x, hx, hrest⟩
  exact ⟨hinvokes, x, getElem?_prefix_mono h.heard hx, hrest⟩

theorem Traced.mono {s : Dispatch} (h : Extends c d) (hs : Traced c s) : Traced d s := by
  unfold Traced at hs ⊢
  split
  . next hnone =>
    rw [hnone] at hs
    exact hs
  . next n hsome =>
    rw [hsome] at hs
    rcases hs with ⟨v, hv, horigin⟩
    exact ⟨v, getElem?_prefix_mono h.visits hv, horigin⟩

theorem Answers.mono (h : Extends c d) (hv : Answers c v) : Answers d v := by
  rcases hv with ⟨x, hx, hends⟩
  refine ⟨x, getElem?_prefix_mono h.heard hx, ?_⟩
  rcases hends with hends | ⟨hverdict, w, hw, hrest⟩
  . exact .inl hends
  . exact .inr ⟨hverdict, w, sender?_of_extends h hw, hrest⟩

theorem sender?_of_traced {n : Nat} {s : Dispatch} {p : Provenance} (hs : c.sent[n]? = some s)
    (htraced : Traced c s) (horigin : s.work.origin = .action p) :
    ∃ w, c.sender? n = some w ∧ w ∈ c.visits ∧ p = w.provenance := by
  unfold Traced at htraced
  split at htraced
  . rw [horigin] at htraced
    cases htraced
  . next m hsender =>
    rcases htraced with ⟨w, hw, hfrom⟩
    rw [horigin] at hfrom
    injection hfrom with hfrom
    refine ⟨w, ?_, List.mem_of_getElem? hw, hfrom⟩
    unfold sender?
    rw [hs, Option.bind_some, hsender, Option.bind_some]
    exact hw

theorem Kept.sent_head {work : Work} {rest : List Work} (kept : Kept machine seed c)
    (hqueue : c.loop.queue = work :: rest) :
    ∃ s, c.sent[c.heard.length]? = some s ∧ s.work = work := by
  have hat : (c.heard.map (·.work) ++ c.loop.queue)[c.heard.length]? = some work := by
    rw [hqueue, List.getElem?_append_right (by simp)]
    simp
  rw [kept.queue_eq, List.getElem?_map, Option.map_eq_some_iff] at hat
  exact hat

theorem Kept.record_mem {x : Hearing E} {n : Nat} (kept : Kept machine seed c)
    (hx : c.heard[n]? = some x) : x.record ∈ c.loop.trail := by
  rw [kept.trail_eq]
  apply List.mem_append_right
  exact List.mem_map_of_mem (List.mem_of_getElem? hx)

theorem hear_heard_last (c : Chronicle E) (x : Hearing E) (next : Loop E) :
    (c.hear x next).heard[c.heard.length]? = some x := by
  simp [hear]

theorem hear_extends (c : Chronicle E) (x : Hearing E) (next : Loop E) :
    Extends c (c.hear x next) := by
  exact ⟨List.prefix_refl _, List.prefix_append _ _, List.prefix_append _ _⟩

theorem visit_of_enter {x : Hearing E} {next : Loop E} {i : Invocation E}
    (hverdict : x.verdict = .accepted)
    (hi : Loop.Invokes machine next.context x.work.event.edge.target i)
    (hevent : i.event = x.work.event) (htrail : x.record ∈ next.trail) :
    Entered machine (c.hear x next) ⟨i, next, c.heard.length, c.heard.length⟩
    ∧ Answers (c.hear x next) ⟨i, next, c.heard.length, c.heard.length⟩ := by
  have hx := hear_heard_last c x next
  have hid := hi.state_id
  constructor
  . rw [← hid] at hi
    exact ⟨hi, x, hx, hverdict, hevent, hid, htrail⟩
  . exact ⟨x, hx, .inl ⟨hverdict, rfl⟩⟩

theorem visit_of_retry {x : Hearing E} {next : Loop E} {i : Invocation E}
    (hverdict : x.verdict ≠ .accepted) (hsender : c.sender? c.heard.length = some w)
    (hw : Entered machine c w) (hi : Loop.Invokes machine next.context w.invocation.state.id i)
    (hevent : i.event = w.invocation.event)
    (htrail : ∀ (n : Nat) (y : Hearing E), c.heard[n]? = some y → y.record ∈ next.trail) :
    Entered machine (c.hear x next) ⟨i, next, c.heard.length, w.entering⟩
    ∧ Answers (c.hear x next) ⟨i, next, c.heard.length, w.entering⟩ := by
  rcases hw with ⟨hwinvokes, y, hy, haccepted, hwevent, hwtarget, hwrecord⟩
  have hid := hi.state_id
  have hstate : i.state = w.invocation.state := by
    have := hi.state
    rw [hwinvokes.state] at this
    injection this with this
    exact this.symm
  have hextends := hear_extends c x next
  constructor
  . rw [← hid] at hi
    refine ⟨hi, y, getElem?_prefix_mono hextends.heard hy, haccepted, ?_, ?_, htrail _ y hy⟩
    . rw [hevent, hwevent]
    . rw [hid, hwtarget]
  . refine ⟨x, hear_heard_last c x next, .inr ⟨hverdict, w, ?_, rfl, hevent, hstate⟩⟩
    exact sender?_of_extends hextends hsender

theorem hear_visit {work : Work} {rest : List Work} {phase : Phase E} {provide : Provide E}
    (kept : Kept machine seed c) (guarded : Guarded machine c)
    (hqueue : c.loop.queue = work :: rest) (turn : Loop.Turn provide c.loop.dequeued work phase)
    {x : Hearing E} (hx : x = ⟨work, c.loop.dequeued, provide⟩) {next : Loop E}
    (hnext : next = { c.loop.dequeued.noted provide work with phase := phase })
    (hv : v ∈ c.visitOf x next) : Entered machine (c.hear x next) v ∧ Answers (c.hear x next) v := by
  have hmachine : c.loop.dequeued.machine = machine := kept.machine_eq
  have hcontext : next.context = c.loop.dequeued.context := by rw [hnext]; rfl
  have htrail : next.trail = c.loop.trail ++ [x.record] := by rw [hnext, hx]; rfl
  have hphase : next.phase = phase := by rw [hnext]
  unfold visitOf at hv
  rw [hphase] at hv
  cases turn with
  | complete | barred | unusable | barredRetry | giveUp => cases hv
  | @enter i hverdict hend hi hevent hfeedback hattempt =>
    rw [hmachine, ← hcontext] at hi
    have hverdict : x.verdict = .accepted := by rw [hx]; exact hverdict
    have hi : Loop.Invokes machine next.context x.work.event.edge.target i := by
      rw [hx]
      exact hi
    have hentering : c.enteringOf x = c.heard.length := by
      unfold enteringOf
      rw [hverdict]
    rw [List.mem_singleton, hentering] at hv
    subst hv
    refine visit_of_enter hverdict hi ?_ ?_
    . rw [hx]
      exact hevent
    . rw [htrail]
      exact List.mem_append_right _ (List.mem_singleton.2 rfl)
  | @retry failure p i hverdict horigin hp hi hevent hfeedback hattempt =>
    rw [hmachine, ← hcontext] at hi
    have hverdict : x.verdict = .rejected failure := by rw [hx]; exact hverdict
    rcases kept.sent_head hqueue with ⟨s, hs, hwork⟩
    rw [← hwork] at horigin
    -- The rejected event was emitted by an earlier visit, whose state was entered properly.
    have htraced := guarded.traced s (List.mem_of_getElem? hs)
    rcases sender?_of_traced hs htraced horigin with ⟨w, hsender, hw, rfl⟩
    have hentering : c.enteringOf x = w.entering := by
      unfold enteringOf
      rw [hverdict]
      dsimp only
      rw [hsender]
      rfl
    rw [List.mem_singleton, hentering] at hv
    subst hv
    refine visit_of_retry ?_ hsender (guarded.entered w hw) hi hevent ?_
    . rw [hverdict]
      intro h
      cases h
    . intro n y hy
      rw [htrail]
      exact List.mem_append_left _ (kept.record_mem hy)

theorem Guarded.begin {context : Context E} {config : RunConfig} {l : Loop E}
    (h : Loop.start machine context seed config = .ok l) : Guarded machine (begin l) := by
  have hl := Loop.start_eq h
  subst hl
  constructor
  . intro v hv
    cases hv
  . intro s hs
    cases hs
  . intro v hv
    cases hv
  . intro n v hv
    simp [Chronicle.begin] at hv
  . trivial
  . exact .inl rfl

theorem Guarded.preserve_visits (kept : Kept machine seed c) (guarded : Guarded machine c)
    (course : Course c move d) : ∀ v ∈ d.visits, Entered machine d v ∧ Answers d v := by
  have hextends := course.extends
  have hold : ∀ v ∈ c.visits, Entered machine d v ∧ Answers d v := by
    intro v hv
    exact ⟨(guarded.entered v hv).mono hextends, (guarded.answers v hv).mono hextends⟩
  cases course with
  | hear provide hphase hqueue turn =>
    intro v hv
    rw [hear, List.mem_append] at hv
    rcases hv with hv | hv
    . exact hold v hv
    . exact hear_visit kept guarded hqueue turn rfl rfl hv
  | _ => exact hold

theorem Guarded.preserve_traced (guarded : Guarded machine c) (course : Course c move d) :
    ∀ s ∈ d.sent, Traced d s := by
  have hextends := course.extends
  have hold : ∀ s ∈ c.sent, Traced d s := by
    intro s hs
    exact (guarded.traced s hs).mono hextends
  cases course with
  | arrive event =>
    intro s hs
    rw [List.mem_append, List.mem_singleton] at hs
    rcases hs with hs | rfl
    . exact hold s hs
    . rfl
  | emit hphase =>
    intro s hs
    rw [List.mem_append, List.mem_singleton] at hs
    rcases hs with hs | rfl
    . exact hold s hs
    . have hbusy := guarded.busy
      unfold Busy at hbusy
      rw [hphase] at hbusy
      rcases hbusy with ⟨v, hlast, hprovenance⟩
      rw [List.getLast?_eq_getElem?] at hlast
      refine ⟨v, hlast, ?_⟩
      rw [hprovenance]
  | _ => exact hold

theorem Answered.heard_length (h : Answered c) (hphase : ∀ result, c.loop.phase ≠ .finished result) :
    c.heard.length = c.visits.length := by
  rcases h with h | ⟨_, result, hresult⟩
  . exact h
  . exact absurd hresult (hphase result)

theorem Guarded.preserve_cause (guarded : Guarded machine c) (course : Course c move d) :
    ∀ (n : Nat) (v : Visit E), d.visits[n]? = some v → v.cause = n := by
  cases course with
  | @hear work rest phase provide hphase hqueue turn =>
    -- While the loop waits, there are as many visits as events that were heard.
    have hlength := guarded.answered.heard_length (by rw [hphase]; simp)
    intro n v hv
    dsimp only [hear] at hv
    by_cases hn : n < c.visits.length
    . rw [List.getElem?_append_left hn] at hv
      exact guarded.cause n v hv
    . rw [List.getElem?_append_right (by omega)] at hv
      unfold visitOf at hv
      split at hv
      . rw [List.getElem?_singleton] at hv
        split at hv
        . injection hv with hv
          rw [← hv]
          dsimp only
          omega
        . cases hv
      . simp at hv
  | _ => exact guarded.cause

theorem Guarded.preserve_busy (guarded : Guarded machine c) (course : Course c move d) : Busy d := by
  have hbusy := guarded.busy
  unfold Busy at hbusy
  cases course with
  | hear provide hphase hqueue turn =>
    cases turn with
    | enter | retry => simp [Busy, hear, visitOf]
    | _ => trivial
  | settle context step hphase =>
    rw [hphase] at hbusy
    rcases hbusy with ⟨v, hlast, hinvocation, _⟩
    refine ⟨v, hlast, ?_⟩
    rw [Visit.provenance, hinvocation]
  | emit hphase =>
    rw [hphase] at hbusy
    exact hbusy
  | arrive | idle => exact hbusy
  | fail | emitted | cancel | crash => trivial

theorem Guarded.preserve_answered (guarded : Guarded machine c) (course : Course c move d) :
    Answered d := by
  cases course with
  | arrive | idle => exact guarded.answered
  | hear provide hphase hqueue turn =>
    have hlength := guarded.answered.heard_length (by rw [hphase]; simp)
    cases turn with
    | enter | retry =>
      left
      simp [hear, visitOf, hlength]
    | _ =>
      right
      simp [hear, visitOf, hlength]
  | settle _ _ hphase | fail _ hphase | emit hphase | emitted hphase | crash hphase =>
    left
    exact guarded.answered.heard_length (by rw [hphase]; simp)
  | cancel hphase =>
    left
    apply guarded.answered.heard_length
    rcases hphase with hphase | ⟨i, hphase⟩
    . rw [hphase]
      simp
    . rw [hphase]
      simp

theorem Guarded.preserve (kept : Kept machine seed c) (guarded : Guarded machine c)
    (course : Course c move d) : Guarded machine d where
  entered v hv := (guarded.preserve_visits kept course v hv).1
  traced := guarded.preserve_traced course
  answers v hv := (guarded.preserve_visits kept course v hv).2
  cause := guarded.preserve_cause course
  busy := guarded.preserve_busy course
  answered := guarded.preserve_answered course

theorem guarded_playAll {context : Context E} {config : RunConfig} {l : Loop E}
    (h : Loop.start machine context seed config = .ok l) (moves : List (Move E)) :
    Guarded machine ((begin l).playAll moves) := by
  have both : Kept machine seed ((begin l).playAll moves)
      ∧ Guarded machine ((begin l).playAll moves) := by
    apply playAll_induction (P := fun c => Kept machine seed c ∧ Guarded machine c)
    . exact ⟨Kept.begin h, Guarded.begin h⟩
    . intro c move ⟨kept, guarded⟩
      have course := play_course c move
      exact ⟨kept.preserve course, guarded.preserve kept course⟩
  exact both.2

theorem Kept.verdict_iff {x : Hearing E} {n : Nat} (kept : Kept machine seed c)
    (hx : c.heard[n]? = some x) : x.verdict = .accepted ↔ x.Valid machine := by
  rw [Hearing.verdict_eq_accepted_iff, kept.heard_machine x (List.mem_of_getElem? hx)]

theorem record_of_accepted {x : Hearing E} (h : x.verdict = .accepted) :
    x.record
      =
    ⟨x.loop.machine.id, x.loop.machine.version, x.work.event.edge.source,
      some x.work.event.edge.target, x.work.event, none⟩ := by
  unfold Hearing.record
  rw [h]
  rfl

theorem Guarded.visit_of_heard {n : Nat} (guarded : Guarded machine c) (hn : n < c.heard.length) :
    (n + 1 = c.heard.length ∧ (∃ result, c.loop.phase = .finished result)
      ∧ ∀ v ∈ c.visits, v.cause ≠ n)
    ∨ ∃ v, c.visits[n]? = some v ∧ v.cause = n := by
  by_cases hvisit : n < c.visits.length
  . right
    have hv : c.visits[n]? = some c.visits[n] := List.getElem?_eq_getElem hvisit
    exact ⟨_, hv, guarded.cause n _ hv⟩
  . left
    rcases guarded.answered with hlength | ⟨hlength, hfinished⟩
    . omega
    . refine ⟨by omega, hfinished, ?_⟩
      intro v hv hcause
      rcases List.getElem_of_mem hv with ⟨m, hm, rfl⟩
      have := guarded.cause m _ (List.getElem?_eq_getElem hm)
      omega

/--
Whatever happens in whatever order, an action is invoked only for an event that was found valid against the
schema of a transition into the state, and can see its record. A rejected event is never what a state is
entered for. Each event that does not end the run causes one invocation: for its target if it was accepted,
and else for the state whose action has emitted it.
-/
theorem entry_guarded {context : Context E} {config : RunConfig} {l : Loop E}
    (h : Loop.start machine context seed config = .ok l) (moves : List (Move E)) :
    let c := (begin l).playAll moves
    (∀ i, c.loop.phase = .invoking i →
      ∃ v ∈ c.visits, v.invocation = i
        ∧ v.loop.context = c.loop.context ∧ v.loop.trail = c.loop.trail)
    ∧ (∀ v ∈ c.visits,
        Loop.Invokes machine v.loop.context v.invocation.state.id v.invocation
        ∧ ∃ x, c.heard[v.entering]? = some x
          ∧ v.invocation.event = x.work.event
          ∧ v.invocation.event.edge.target = v.invocation.state.id
          ∧ x.Valid machine
          ∧ ⟨machine.id, machine.version, v.invocation.event.edge.source,
              some v.invocation.state.id, v.invocation.event, none⟩ ∈ v.loop.trail)
    ∧ (∀ n x, c.heard[n]? = some x → ¬ x.Valid machine → ∀ v ∈ c.visits, v.entering ≠ n)
    ∧ (∀ n x, c.heard[n]? = some x →
        (n + 1 = c.heard.length ∧ (∃ result, c.loop.phase = .finished result)
          ∧ ∀ v ∈ c.visits, v.cause ≠ n)
        ∨ ∃ v, c.visits[n]? = some v
          ∧ v.cause = n
          ∧ (∀ m w, c.visits[m]? = some w → w.cause = n → m = n)
          ∧ ((x.Valid machine
              ∧ v.entering = n ∧ v.invocation.state.id = x.work.event.edge.target)
            ∨ (¬ x.Valid machine
              ∧ ∃ w, c.sender? n = some w
                ∧ v.entering = w.entering
                ∧ v.invocation.event = w.invocation.event
                ∧ v.invocation.state = w.invocation.state))) := by
  intro c
  have kept : Kept machine seed c := kept_playAll h moves
  have guarded : Guarded machine c := guarded_playAll h moves
  refine ⟨?_, ?_, ?_, ?_⟩
  . intro i hphase
    have hbusy := guarded.busy
    unfold Busy at hbusy
    rw [hphase] at hbusy
    rcases hbusy with ⟨v, hlast, hi, htrail, hcontext⟩
    exact ⟨v, List.mem_of_getLast? hlast, hi, hcontext, htrail⟩
  . intro v hv
    rcases guarded.entered v hv with ⟨hinvokes, x, hx, haccepted, hevent, htarget, hrecord⟩
    have hvalid := (kept.verdict_iff hx).1 haccepted
    have hmachine := kept.heard_machine x (List.mem_of_getElem? hx)
    rw [record_of_accepted haccepted, hmachine, ← htarget, ← hevent] at hrecord
    refine ⟨hinvokes, x, hx, hevent, ?_, hvalid, hrecord⟩
    rw [hevent, htarget]
  . intro n x hx hinvalid v hv hn
    -- The event that a visit was entered for was accepted, also after any number of retries.
    rcases guarded.entered v hv with ⟨_, y, hy, haccepted, _⟩
    rw [hn, hx] at hy
    injection hy with hy
    subst hy
    exact hinvalid ((kept.verdict_iff hx).1 haccepted)
  . intro n x hx
    have hn : n < c.heard.length := (List.getElem?_eq_some_iff.1 hx).1
    rcases guarded.visit_of_heard hn with hended | ⟨v, hv, hcause⟩
    . exact .inl hended
    . right
      refine ⟨v, hv, hcause, ?_, ?_⟩
      . intro m w hw hwcause
        rw [← guarded.cause m w hw, hwcause]
      . have hmem := List.mem_of_getElem? hv
        rcases guarded.answers v hmem with ⟨y, hy, hends⟩
        rw [hcause, hx] at hy
        injection hy with hy
        subst hy
        rw [hcause] at hends
        rw [← kept.verdict_iff hx]
        rcases hends with ⟨haccepted, hentering⟩ | hrejected
        . left
          rcases guarded.entered v hmem with ⟨_, y, hy, _, _, htarget, _⟩
          rw [hentering, hx] at hy
          injection hy with hy
          subst hy
          exact ⟨haccepted, hentering, htarget⟩
        . exact .inr hrejected

theorem entry_guarded_retry :
    Loop.start Sample.machine Sample.context [] .standard = .ok Sample.loop
    ∧ Sample.chronicle.visits.map (fun v => (v.cause, v.entering)) = [(0, 0), (1, 0)]
    ∧ ∀ v ∈ Sample.chronicle.visits, ∃ x, Sample.chronicle.heard[v.entering]? = some x
        ∧ v.invocation.event = x.work.event
        ∧ x.Valid Sample.machine := by
  have hstart : Loop.start Sample.machine Sample.context [] .standard = .ok Sample.loop := by rfl
  rcases entry_guarded hstart Sample.moves with ⟨_, hvisits, _⟩
  refine ⟨hstart, by decide +kernel, ?_⟩
  intro v hv
  rcases hvisits v hv with ⟨_, x, hx, hevent, _, hvalid, _⟩
  exact ⟨x, hx, hevent, hvalid⟩

end Chronicle

end Turnstile
