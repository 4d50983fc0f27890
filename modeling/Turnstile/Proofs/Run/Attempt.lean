import Turnstile.Proofs.Run.Entry

/-!
This module contains the chain of attempts: what a further attempt of an action has to do with the event
whose rejection has caused it, and with the invocation that has emitted this event.
-/

namespace Turnstile

theorem RunConfig.attempts_toNat (config : RunConfig) :
    config.attempts.toNat = max 1 config.maxAttempts.toNat := by
  unfold attempts
  rw [Nat.max_comm]
  show (if config.maxAttempts ≤ 1 then (1 : UInt32) else config.maxAttempts).toNat = _
  split
  . next h =>
    rw [UInt32.le_iff_toNat_le, UInt32.toNat_one] at h
    rw [UInt32.toNat_one]
    omega
  . next h =>
    rw [UInt32.le_iff_toNat_le, UInt32.toNat_one] at h
    omega

namespace Loop

variable {E : Extension} {provide : Provide E} {l : Loop E} {work : Work} {failure : Failure}

theorem judge_rejected (h : l.judge provide work = .rejected failure) :
    failure.attempt = work.origin.attempt
    ∧ (failure.kind = .validation ∨ failure.kind = .unknownTransition) := by
  unfold judge at h
  dsimp only at h
  split at h
  . injection h with h
    subst h
    exact ⟨rfl, .inr rfl⟩
  . split at h
    . cases h
    . split at h
      . cases h
      . split at h
        . cases h
        . injection h with h
          subst h
          exact ⟨rfl, .inl rfl⟩

theorem judge_unusable {error : RunError} (h : l.judge provide work = .unusable failure error) :
    failure.attempt = work.origin.attempt ∧ failure.kind = .schema := by
  unfold judge at h
  dsimp only at h
  split at h
  . cases h
  . split at h
    . injection h with h
      subst h
      exact ⟨rfl, rfl⟩
    . split at h
      . injection h with h
        subst h
        exact ⟨rfl, rfl⟩
      . split at h
        . cases h
        . cases h

theorem Invokes.retries {id : StateId} {i : Invocation E} (hi : Invokes l.machine l.context id i)
    (h : l.retries id = true) : i.action.retries = true := by
  unfold Loop.retries at h
  rw [hi.state, Option.bind_some, hi.name] at h
  dsimp only at h
  rw [hi.action] at h
  exact h

end Loop

namespace Hearing

variable {E : Extension} {x : Hearing E} {failure : Failure}

theorem record_of_rejected (h : x.verdict = .rejected failure) :
    x.record
      =
    ⟨x.loop.machine.id, x.loop.machine.version, x.work.event.edge.source, none, x.work.event,
      some failure⟩ := by
  unfold record
  rw [h]
  rfl

theorem attempt_of_record (h : x.record.failure = some failure) :
    failure.attempt = x.work.origin.attempt := by
  generalize hv : x.verdict = verdict
  unfold record at h
  rw [hv] at h
  cases verdict with
  | accepted => cases h
  | rejected _ =>
    injection h with h
    subst h
    exact (Loop.judge_rejected hv).1
  | unusable _ _ =>
    injection h with h
    subst h
    exact (Loop.judge_unusable hv).1

end Hearing

namespace Chronicle

variable {E : Extension} {machine : Machine} {seed : Trail} {c d : Chronicle E} {move : Move E}
  {v w : Visit E} {limit : UInt32}

/-- The position of the invocation whose action has emitted the event at a position. -/
def emitter? (c : Chronicle E) (position : Nat) : Option Nat :=
  (c.sent[position]?).bind (·.sender)

theorem sender?_eq_bind (c : Chronicle E) (position : Nat) :
    c.sender? position = (c.emitter? position).bind fun n => c.visits[n]? := by
  rfl

theorem emitter?_of_extends {n m : Nat} (h : Extends c d) (hm : c.emitter? n = some m) :
    d.emitter? n = some m := by
  unfold emitter? at hm ⊢
  rw [Option.bind_eq_some_iff] at hm
  rcases hm with ⟨s, hs, hm⟩
  rw [getElem?_prefix_mono h.sent hs]
  exact hm

theorem emitter?_of_traced {n : Nat} {s : Dispatch} {p : Provenance} (hs : c.sent[n]? = some s)
    (htraced : Traced c s) (horigin : s.work.origin = .action p) :
    ∃ m w, c.emitter? n = some m ∧ c.visits[m]? = some w ∧ p = w.provenance := by
  rcases sender?_of_traced hs htraced horigin with ⟨w, hsender, _, hp⟩
  rw [sender?_eq_bind, Option.bind_eq_some_iff] at hsender
  rcases hsender with ⟨m, hm, hw⟩
  exact ⟨m, w, hm, hw, hp⟩

/-- The visit is a further attempt after the one at a position, whose event was rejected. -/
structure Repeats (limit : UInt32) (c : Chronicle E) (x : Hearing E) (v : Visit E) (m : Nat)
    (w : Visit E) (failure : Failure) : Prop where
  rejected : x.verdict = .rejected failure
  emitter : c.emitter? v.cause = some m
  visit : c.visits[m]? = some w
  earlier : m < v.cause
  below : w.invocation.attempt < limit
  attempt : v.invocation.attempt = w.invocation.attempt + 1
  feedback : v.invocation.feedback = some failure
  retries : v.invocation.action.retries = true

/-- The visit is the first one for its event, or a further attempt. -/
def Paced (limit : UInt32) (c : Chronicle E) (v : Visit E) : Prop :=
  ∃ x, c.heard[v.cause]? = some x
    ∧ v.loop.trail.getLast? = some x.record
    ∧ ((x.verdict = .accepted ∧ v.invocation.attempt = 1 ∧ v.invocation.feedback = none)
      ∨ ∃ m w failure, Repeats limit c x v m w failure)

structure Chained (limit : UInt32) (c : Chronicle E) : Prop where
  limit_eq : c.loop.maxAttempts = limit
  paced : ∀ v ∈ c.visits, Paced limit c v

theorem Repeats.mono {x : Hearing E} {m : Nat} {failure : Failure} (h : Extends c d)
    (hr : Repeats limit c x v m w failure) : Repeats limit d x v m w failure :=
  { hr with
    emitter := emitter?_of_extends h hr.emitter
    visit := getElem?_prefix_mono h.visits hr.visit }

theorem Paced.mono (h : Extends c d) (hv : Paced limit c v) : Paced limit d v := by
  rcases hv with ⟨x, hx, hlast, hends⟩
  refine ⟨x, getElem?_prefix_mono h.heard hx, hlast, ?_⟩
  rcases hends with hfirst | ⟨m, w, failure, hr⟩
  . exact .inl hfirst
  . exact .inr ⟨m, w, failure, hr.mono h⟩

theorem Repeats.attempt_toNat {x : Hearing E} {m : Nat} {failure : Failure}
    (hr : Repeats limit c x v m w failure) :
    v.invocation.attempt.toNat = w.invocation.attempt.toNat + 1
    ∧ v.invocation.attempt.toNat ≤ limit.toNat := by
  -- There is room for one more below the limit, so that nothing wraps around.
  have hbelow : w.invocation.attempt.toNat < limit.toNat := UInt32.lt_iff_toNat_lt.1 hr.below
  have hlimit := limit.toNat_lt
  have hnext : v.invocation.attempt.toNat = w.invocation.attempt.toNat + 1 := by
    rw [hr.attempt, UInt32.toNat_add, UInt32.toNat_one]
    omega
  omega

theorem Repeats.attempt_eq_one_iff {x : Hearing E} {m : Nat} {failure : Failure}
    (hr : Repeats limit c x v m w failure) (hw : 1 ≤ w.invocation.attempt.toNat) :
    v.invocation.attempt = 1 ↔ v.invocation.feedback = none := by
  have hnext := hr.attempt_toNat.1
  constructor
  . intro hone
    rw [hone, UInt32.toNat_one] at hnext
    omega
  . intro hnone
    rw [hr.feedback] at hnone
    cases hnone

theorem Paced.one_le (hv : Paced limit c v) : 1 ≤ v.invocation.attempt.toNat := by
  rcases hv with ⟨_, _, _, ⟨_, hattempt, _⟩ | ⟨_, _, _, hr⟩⟩
  . rw [hattempt]
    decide
  . have := hr.attempt_toNat
    omega

theorem Paced.le_limit (hv : Paced limit c v) (hlimit : 1 ≤ limit.toNat) :
    v.invocation.attempt.toNat ≤ limit.toNat := by
  rcases hv with ⟨_, _, _, ⟨_, hattempt, _⟩ | ⟨_, _, _, hr⟩⟩
  . rw [hattempt]
    exact hlimit
  . exact hr.attempt_toNat.2

theorem hear_paced {work : Work} {rest : List Work} {phase : Phase E} {provide : Provide E}
    (kept : Kept machine seed c) (guarded : Guarded machine c) (hlimit : c.loop.maxAttempts = limit)
    (hphase : c.loop.phase = .waiting) (hqueue : c.loop.queue = work :: rest)
    (turn : Loop.Turn provide c.loop.dequeued work phase) {x : Hearing E}
    (hx : x = ⟨work, c.loop.dequeued, provide⟩) {next : Loop E}
    (hnext : next = { c.loop.dequeued.noted provide work with phase := phase })
    (hv : v ∈ c.visitOf x next) : Paced limit (c.hear x next) v := by
  have hnextphase : next.phase = phase := by rw [hnext]
  have htrail : next.trail.getLast? = some x.record := by
    have : next.trail = c.loop.trail ++ [x.record] := by rw [hnext, hx]; rfl
    rw [this, List.getLast?_concat]
  unfold visitOf at hv
  rw [hnextphase] at hv
  cases turn with
  | complete | barred | unusable | barredRetry | giveUp => cases hv
  | @enter i hverdict _ _ _ hfeedback hattempt =>
    rw [List.mem_singleton] at hv
    subst hv
    refine ⟨x, hear_heard_last c x next, htrail, .inl ⟨?_, hattempt, hfeedback⟩⟩
    rw [hx]
    exact hverdict
  | @retry failure p i hverdict horigin hp hi _ hfeedback hattempt =>
    rw [List.mem_singleton] at hv
    subst hv
    rcases kept.sent_head hqueue with ⟨s, hs, hwork⟩
    rw [← hwork] at horigin
    have htraced := guarded.traced s (List.mem_of_getElem? hs)
    rcases emitter?_of_traced hs htraced horigin with ⟨m, w, hm, hw, rfl⟩
    have hextends := hear_extends c x next
    -- The emitter was there before the event was heard, and all events that were heard have been answered.
    have hearlier : m < c.heard.length := by
      rw [guarded.answered.heard_length (by rw [hphase]; simp)]
      exact (List.getElem?_eq_some_iff.1 hw).1
    refine ⟨x, hear_heard_last c x next, htrail, .inr ⟨m, w, failure, ?_⟩⟩
    exact {
      rejected := by rw [hx]; exact hverdict
      emitter := emitter?_of_extends hextends hm
      visit := getElem?_prefix_mono hextends.visits hw
      earlier := hearlier
      below := by rw [← hlimit]; exact hp.1
      attempt := hattempt
      feedback := hfeedback
      retries := hi.retries hp.2 }

theorem Chained.begin {context : Context E} {config : RunConfig} {l : Loop E}
    (h : Loop.start machine context seed config = .ok l) : Chained config.attempts (begin l) := by
  have hl := Loop.start_eq h
  subst hl
  constructor
  . rfl
  . intro v hv
    cases hv

theorem Chained.preserve_limit (chained : Chained limit c) (course : Course c move d) :
    d.loop.maxAttempts = limit := by
  cases course with
  | _ => exact chained.limit_eq

theorem Chained.preserve_paced (kept : Kept machine seed c) (guarded : Guarded machine c)
    (chained : Chained limit c) (course : Course c move d) : ∀ v ∈ d.visits, Paced limit d v := by
  have hextends := course.extends
  have hold : ∀ v ∈ c.visits, Paced limit d v := by
    intro v hv
    exact (chained.paced v hv).mono hextends
  cases course with
  | hear provide hphase hqueue turn =>
    intro v hv
    rw [hear, List.mem_append] at hv
    rcases hv with hv | hv
    . exact hold v hv
    . exact hear_paced kept guarded chained.limit_eq hphase hqueue turn rfl rfl hv
  | _ => exact hold

theorem Chained.preserve (kept : Kept machine seed c) (guarded : Guarded machine c)
    (chained : Chained limit c) (course : Course c move d) : Chained limit d where
  limit_eq := chained.preserve_limit course
  paced := chained.preserve_paced kept guarded course

theorem chained_playAll {context : Context E} {config : RunConfig} {l : Loop E}
    (h : Loop.start machine context seed config = .ok l) (moves : List (Move E)) :
    Chained config.attempts ((begin l).playAll moves) := by
  have all : Kept machine seed ((begin l).playAll moves)
      ∧ Guarded machine ((begin l).playAll moves)
      ∧ Chained config.attempts ((begin l).playAll moves) := by
    apply playAll_induction
      (P := fun c => Kept machine seed c ∧ Guarded machine c ∧ Chained config.attempts c)
    . exact ⟨Kept.begin h, Guarded.begin h, Chained.begin h⟩
    . intro c move ⟨kept, guarded, chained⟩
      have course := play_course c move
      exact ⟨kept.preserve course, guarded.preserve kept course, chained.preserve kept guarded course⟩
  exact all.2.2

theorem Kept.work_of_heard {x : Hearing E} {s : Dispatch} {n : Nat} (kept : Kept machine seed c)
    (hx : c.heard[n]? = some x) (hs : c.sent[n]? = some s) : x.work = s.work := by
  have hsent : (c.sent.map (·.work))[n]? = some s.work := by rw [List.getElem?_map, hs]; rfl
  have hheard : (c.heard.map (·.work))[n]? = some x.work := by rw [List.getElem?_map, hx]; rfl
  rw [← kept.queue_eq, getElem?_prefix_mono (List.prefix_append _ _) hheard] at hsent
  injection hsent

theorem Guarded.entering_of_accepted {x : Hearing E} (guarded : Guarded machine c) (hv : v ∈ c.visits)
    (hx : c.heard[v.cause]? = some x) (hverdict : x.verdict = .accepted) : v.entering = v.cause := by
  rcases guarded.answers v hv with ⟨y, hy, hends⟩
  rw [hx] at hy
  injection hy with hy
  subst hy
  rcases hends with ⟨_, hentering⟩ | ⟨hrejected, _⟩
  . exact hentering
  . exact absurd hverdict hrejected

theorem Guarded.record_of_first {x : Hearing E} (kept : Kept machine seed c)
    (guarded : Guarded machine c) (hv : v ∈ c.visits) (hx : c.heard[v.cause]? = some x)
    (hverdict : x.verdict = .accepted) :
    x.record
      =
    ⟨machine.id, machine.version, v.invocation.event.edge.source, some v.invocation.state.id,
      v.invocation.event, none⟩ := by
  rcases guarded.entered v hv with ⟨_, y, hy, _, hevent, htarget, _⟩
  rw [guarded.entering_of_accepted hv hx hverdict, hx] at hy
  injection hy with hy
  subst hy
  rw [record_of_accepted hverdict, kept.heard_machine x (List.mem_of_getElem? hx), hevent, htarget]

/-- A further attempt is one of the same state, for the same event. -/
theorem Guarded.same_of_repeats {x : Hearing E} {m : Nat} {failure : Failure}
    (guarded : Guarded machine c) (hv : v ∈ c.visits) (hx : c.heard[v.cause]? = some x)
    (hr : Repeats limit c x v m w failure) :
    w.invocation.state = v.invocation.state
    ∧ w.invocation.event = v.invocation.event
    ∧ w.entering = v.entering := by
  rcases guarded.answers v hv with ⟨y, hy, hends⟩
  rw [hx] at hy
  injection hy with hy
  subst hy
  rcases hends with ⟨haccepted, _⟩ | ⟨_, u, hu, hentering, hevent, hstate⟩
  . rw [hr.rejected] at haccepted
    cases haccepted
  . rw [sender?_eq_bind, hr.emitter, Option.bind_some, hr.visit] at hu
    injection hu with hu
    subst hu
    exact ⟨hstate.symm, hevent.symm, hentering.symm⟩

/-- The attempt that the failure names is the one of the invocation that has emitted the event. -/
theorem Guarded.attempt_of_repeats {x : Hearing E} {m : Nat} {failure : Failure}
    (kept : Kept machine seed c) (guarded : Guarded machine c) (hx : c.heard[v.cause]? = some x)
    (hr : Repeats limit c x v m w failure) : failure.attempt = w.invocation.attempt := by
  have hm := hr.emitter
  unfold emitter? at hm
  rw [Option.bind_eq_some_iff] at hm
  rcases hm with ⟨s, hs, hsender⟩
  have htraced := guarded.traced s (List.mem_of_getElem? hs)
  unfold Traced at htraced
  rw [hsender] at htraced
  rcases htraced with ⟨u, hu, horigin⟩
  rw [hr.visit] at hu
  injection hu with hu
  subst hu
  rw [(Loop.judge_rejected hr.rejected).1, kept.work_of_heard hx hs, horigin]
  rfl

theorem Guarded.external_of_sender {s : Dispatch} {n : Nat} (guarded : Guarded machine c)
    (hs : c.sent[n]? = some s) (hsender : s.sender = none) : s.work.origin = .external := by
  have htraced := guarded.traced s (List.mem_of_getElem? hs)
  unfold Traced at htraced
  rw [hsender] at htraced
  exact htraced

/-- Nobody who could be given feedback has sent what comes from outside. -/
theorem Chained.feedback_of_sender {s : Dispatch} (chained : Chained limit c) (hv : v ∈ c.visits)
    (hs : c.sent[v.cause]? = some s) (hsender : s.sender = none) : v.invocation.feedback = none := by
  rcases chained.paced v hv with ⟨_, _, _, ⟨_, _, hfeedback⟩ | ⟨m, w, failure, hr⟩⟩
  . exact hfeedback
  . have hm := hr.emitter
    unfold emitter? at hm
    rw [hs, Option.bind_some, hsender] at hm
    cases hm

/--
Whatever happens in whatever order, an action is invoked for the first time with no feedback and right after
its event was recorded. Every further attempt comes right after the record of a rejected event, which the
action has emitted at the attempt before it, and is given the failure that this record tells. Events that
come from outside are not tried again.
-/
theorem attempts_chained {context : Context E} {config : RunConfig} {l : Loop E}
    (h : Loop.start machine context seed config = .ok l) (moves : List (Move E)) :
    let c := (begin l).playAll moves
    (∀ i, c.loop.phase = .invoking i →
      ∃ v, c.visits.getLast? = some v ∧ v.invocation = i ∧ v.loop.trail = c.loop.trail)
    ∧ (∀ n v, c.visits[n]? = some v →
        1 ≤ v.invocation.attempt.toNat
        ∧ v.invocation.attempt.toNat ≤ max 1 config.maxAttempts.toNat
        ∧ (v.invocation.attempt = 1 ↔ v.invocation.feedback = none)
        ∧ (v.invocation.feedback = none →
            v.loop.trail.getLast? = some ⟨machine.id, machine.version,
              v.invocation.event.edge.source, some v.invocation.state.id, v.invocation.event, none⟩)
        ∧ ∀ failure, v.invocation.feedback = some failure →
            ∃ m w x, m < n
              ∧ c.visits[m]? = some w
              ∧ w.invocation.state = v.invocation.state
              ∧ w.invocation.event = v.invocation.event
              ∧ w.entering = v.entering
              ∧ v.invocation.attempt.toNat = w.invocation.attempt.toNat + 1
              ∧ c.heard[v.cause]? = some x
              ∧ c.emitter? v.cause = some m
              ∧ v.loop.trail.getLast? = some ⟨machine.id, machine.version,
                  x.work.event.edge.source, none, x.work.event, some failure⟩
              ∧ failure.attempt = w.invocation.attempt
              ∧ (failure.kind = .validation ∨ failure.kind = .unknownTransition)
              ∧ v.invocation.action.retries = true)
    ∧ ∀ n s x, c.sent[n]? = some s → s.sender = none → c.heard[n]? = some x →
        (∀ failure, x.record.failure = some failure → failure.attempt = 1)
        ∧ ∀ v ∈ c.visits, v.cause = n → v.invocation.feedback = none := by
  intro c
  have kept : Kept machine seed c := kept_playAll h moves
  have guarded : Guarded machine c := guarded_playAll h moves
  have chained : Chained config.attempts c := chained_playAll h moves
  have hlimit := config.attempts_toNat
  refine ⟨?_, ?_, ?_⟩
  . intro i hphase
    have hbusy := guarded.busy
    unfold Busy at hbusy
    rw [hphase] at hbusy
    rcases hbusy with ⟨v, hlast, hi, htrail, _⟩
    exact ⟨v, hlast, hi, htrail⟩
  . intro n v hv
    have hmem := List.mem_of_getElem? hv
    have hpaced := chained.paced v hmem
    have hle := hpaced.le_limit (by omega)
    rcases hpaced with ⟨x, hx, hlast, ⟨hverdict, hattempt, hfeedback⟩ | ⟨m, w, failure, hr⟩⟩
    . refine ⟨by rw [hattempt]; decide, by omega, by simp [hattempt, hfeedback], ?_, ?_⟩
      . intro _
        rw [hlast, guarded.record_of_first kept hmem hx hverdict]
      . intro failure hfailure
        rw [hfeedback] at hfailure
        cases hfailure
    . have hw := (chained.paced w (List.mem_of_getElem? hr.visit)).one_le
      have hnext := hr.attempt_toNat.1
      refine ⟨by omega, by omega, hr.attempt_eq_one_iff hw, ?_, ?_⟩
      . intro hnone
        rw [hr.feedback] at hnone
        cases hnone
      . intro other hother
        rw [hr.feedback] at hother
        injection hother with hother
        subst hother
        rcases guarded.same_of_repeats hmem hx hr with ⟨hstate, hevent, hentering⟩
        have hearlier := hr.earlier
        rw [guarded.cause n v hv] at hearlier
        refine ⟨m, w, x, hearlier, hr.visit, hstate, hevent, hentering, hnext, hx, hr.emitter, ?_,
          guarded.attempt_of_repeats kept hx hr, (Loop.judge_rejected hr.rejected).2, hr.retries⟩
        rw [hlast, x.record_of_rejected hr.rejected, kept.heard_machine x (List.mem_of_getElem? hx)]
  . intro n s x hs hsender hx
    constructor
    . intro failure hfailure
      rw [x.attempt_of_record hfailure, kept.work_of_heard hx hs, guarded.external_of_sender hs hsender]
      rfl
    . intro v hv hcause
      rw [← hcause] at hs
      exact chained.feedback_of_sender hv hs hsender

theorem attempts_chained_again :
    Loop.start Sample.machine Sample.context [] .standard = .ok Sample.loop
    ∧ Sample.chronicle.visits.map (fun v => (v.invocation.attempt, v.invocation.feedback.isSome))
      = [(1, false), (2, true)]
    ∧ ∀ (n : Nat) (v : Visit Sample.extension), Sample.chronicle.visits[n]? = some v →
        v.invocation.attempt.toNat ≤ 3 ∧ (v.invocation.attempt = 1 ↔ v.invocation.feedback = none) := by
  have hstart : Loop.start Sample.machine Sample.context [] .standard = .ok Sample.loop := by rfl
  rcases attempts_chained hstart Sample.moves with ⟨_, hvisits, _⟩
  refine ⟨hstart, by decide +kernel, ?_⟩
  intro n v hv
  rcases hvisits n v hv with ⟨_, hle, hone, _⟩
  exact ⟨hle, hone⟩

end Chronicle

end Turnstile
