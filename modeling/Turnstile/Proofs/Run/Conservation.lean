import Turnstile.Proofs.Run.Chronicle

/-!
This module contains the conservation of events: the trail of a run has one record for each event that was
taken off the queue, and what was taken and what is still queued together are what was sent.
-/

namespace Turnstile

namespace Loop

variable {E : Extension}

theorem start_eq {machine : Machine} {context : Context E} {seed : Trail} {config : RunConfig}
    {l : Loop E} (h : start machine context seed config = .ok l) :
    l = ⟨machine, config.attempts, context, seed, [], .waiting⟩ := by
  unfold start at h
  split at h
  . cases h
  . split at h
    . cases h
    . injection h with h
      exact h.symm

end Loop

namespace Move

variable {E : Extension}

def arrival? : Move E → Option Event
  | .arrive event => some event
  | _ => none

end Move

namespace Hearing

variable {E : Extension}

theorem record_wellFormed (x : Hearing E) :
    x.record.event = x.work.event
    ∧ x.record.machineId = x.loop.machine.id
    ∧ x.record.machineVersion = x.loop.machine.version
    ∧ x.record.source = x.work.event.edge.source
    ∧ ((x.record.target = some x.work.event.edge.target ∧ x.record.failure = none)
      ∨ (x.record.target = none ∧ x.record.failure.isSome = true)) := by
  unfold record Loop.recordOf
  split
  . exact ⟨rfl, rfl, rfl, rfl, .inl ⟨rfl, rfl⟩⟩
  . exact ⟨rfl, rfl, rfl, rfl, .inr ⟨rfl, rfl⟩⟩
  . exact ⟨rfl, rfl, rfl, rfl, .inr ⟨rfl, rfl⟩⟩

end Hearing

namespace Chronicle

variable {E : Extension} {machine : Machine} {seed : Trail} {c d : Chronicle E} {move : Move E}

/-- The events that have come from outside, in the order in which they were sent. -/
def arrivals (c : Chronicle E) : List Event :=
  (c.sent.filter (·.sender.isNone)).map (·.work.event)

/-- The events that actions have emitted, in the order in which they were sent. -/
def emissions (c : Chronicle E) : List Event :=
  (c.sent.filter (·.sender.isSome)).map (·.work.event)

/-- Nothing is lost, doubled or put into another order. -/
structure Kept (machine : Machine) (seed : Trail) (c : Chronicle E) : Prop where
  machine_eq : c.loop.machine = machine
  heard_machine : ∀ x ∈ c.heard, x.loop.machine = machine
  trail_eq : c.loop.trail = seed ++ c.heard.map Hearing.record
  queue_eq : c.heard.map (·.work) ++ c.loop.queue = c.sent.map (·.work)
  emitted_eq : c.emissions ++ c.loop.pending = c.returned.flatMap (·.events)

theorem Kept.begin {context : Context E} {config : RunConfig} {l : Loop E}
    (h : Loop.start machine context seed config = .ok l) : Kept machine seed (begin l) := by
  have hl := Loop.start_eq h
  subst hl
  constructor
  . rfl
  . intro x hx
    cases hx
  . simp [Chronicle.begin]
  . rfl
  . rfl

theorem Kept.preserve_machine (kept : Kept machine seed c) (course : Course c move d) :
    d.loop.machine = machine := by
  cases course with
  | _ => exact kept.machine_eq

theorem Kept.preserve_heard_machine (kept : Kept machine seed c) (course : Course c move d) :
    ∀ x ∈ d.heard, x.loop.machine = machine := by
  cases course with
  | hear provide hphase hqueue turn =>
    intro x hx
    rw [hear, List.mem_append, List.mem_singleton] at hx
    rcases hx with hx | hx
    . exact kept.heard_machine x hx
    . subst hx
      exact kept.machine_eq
  | _ => exact kept.heard_machine

theorem Kept.preserve_trail (kept : Kept machine seed c) (course : Course c move d) :
    d.loop.trail = seed ++ d.heard.map Hearing.record := by
  cases course with
  | @hear work rest phase provide hphase hqueue turn =>
    have htrail : c.loop.dequeued.trail = seed ++ c.heard.map Hearing.record := kept.trail_eq
    unfold hear Loop.noted
    rw [List.map_append, ← List.append_assoc, ← htrail]
    rfl
  | _ => exact kept.trail_eq

theorem Kept.preserve_queue (kept : Kept machine seed c) (course : Course c move d) :
    d.heard.map (·.work) ++ d.loop.queue = d.sent.map (·.work) := by
  cases course with
  | @hear work rest phase provide hphase hqueue turn =>
    -- The event at the head of the queue becomes the last one that was heard.
    have hkept := kept.queue_eq
    rw [hqueue] at hkept
    have htail : c.loop.dequeued.queue = rest := by simp [Loop.dequeued, hqueue]
    unfold hear Loop.noted
    rw [htail, List.map_append, List.append_assoc]
    exact hkept
  | arrive | emit =>
    dsimp only
    rw [List.map_append, ← kept.queue_eq, List.append_assoc]
    rfl
  | _ => exact kept.queue_eq

theorem Kept.preserve_emitted (kept : Kept machine seed c) (course : Course c move d) :
    d.emissions ++ d.loop.pending = d.returned.flatMap (·.events) := by
  have hkept := kept.emitted_eq
  cases course with
  | arrive event => simpa [emissions, Loop.pending] using hkept
  | hear provide hphase hqueue turn =>
    have hbefore : c.loop.pending = [] := by simp [Loop.pending, hphase]
    rw [hbefore] at hkept
    cases turn with
    | _ => simpa [emissions, hear, Loop.pending] using hkept
  | settle context step hphase =>
    have hbefore : c.loop.pending = [] := by simp [Loop.pending, hphase]
    rw [hbefore, List.append_nil] at hkept
    rw [List.flatMap_append, ← hkept]
    simp [emissions, Loop.pending]
  | emit hphase => simpa [emissions, Loop.pending, hphase] using hkept
  | emitted hphase => simpa [emissions, Loop.pending, hphase] using hkept
  | fail error hphase => simpa [emissions, Loop.pending, hphase] using hkept
  | cancel hphase =>
    rcases hphase with hphase | ⟨i, hphase⟩
    . simpa [emissions, Loop.pending, hphase] using hkept
    . simpa [emissions, Loop.pending, hphase] using hkept
  | crash hphase => simpa [emissions, Loop.pending, hphase] using hkept
  | idle => exact hkept

theorem Kept.preserve (kept : Kept machine seed c) (course : Course c move d) :
    Kept machine seed d where
  machine_eq := kept.preserve_machine course
  heard_machine := kept.preserve_heard_machine course
  trail_eq := kept.preserve_trail course
  queue_eq := kept.preserve_queue course
  emitted_eq := kept.preserve_emitted course

theorem kept_playAll {context : Context E} {config : RunConfig} {l : Loop E}
    (h : Loop.start machine context seed config = .ok l) (moves : List (Move E)) :
    Kept machine seed ((begin l).playAll moves) := by
  apply playAll_induction (Kept.begin h)
  intro c move kept
  exact kept.preserve (play_course c move)

theorem arrivals_play (c : Chronicle E) (move : Move E) :
    (c.play move).arrivals = c.arrivals ++ move.arrival?.toList := by
  generalize hd : c.play move = d
  have course := play_course c move
  rw [hd] at course
  cases course with
  | idle =>
    cases move with
    | arrive event =>
      -- An event that arrives is always sent, so that nothing has changed only after other moves.
      have hsent := congrArg (·.sent.length) hd
      simp [play] at hsent
    | _ => simp [Move.arrival?]
  | _ => simp [arrivals, hear, Move.arrival?]

theorem arrivals_playAll (c : Chronicle E) (moves : List (Move E)) :
    (c.playAll moves).arrivals = c.arrivals ++ moves.filterMap Move.arrival? := by
  induction moves generalizing c with
  | nil => simp [playAll]
  | cons move rest ih =>
    have hstep := ih (c.play move)
    rw [arrivals_play] at hstep
    refine hstep.trans ?_
    cases h : move.arrival? with
    | none => simp [h]
    | some event => simp [h]

theorem trail_prefix_play (c : Chronicle E) (move : Move E) :
    c.loop.trail <+: (c.play move).loop.trail := by
  generalize hd : c.play move = d
  have course := play_course c move
  rw [hd] at course
  cases course with
  | hear => exact List.prefix_append _ _
  | _ => exact List.prefix_refl _

theorem trail_prefix_playAll (c : Chronicle E) (moves : List (Move E)) :
    c.loop.trail <+: (c.playAll moves).loop.trail := by
  apply playAll_induction (P := fun d => c.loop.trail <+: d.loop.trail)
  . exact List.prefix_refl _
  . intro d move h
    exact h.trans (trail_prefix_play d move)

/--
Whatever happens in whatever order, the trail is the one that the run goes on from with one record for each
event that was taken off the queue, in that order; and these events with those that are still queued are the
ones that were sent. What was sent is made up of what has come from outside and of what actions have
emitted, each in its own order.
-/
theorem trail_conserved {context : Context E} {config : RunConfig} {l : Loop E}
    (h : Loop.start machine context seed config = .ok l) (moves : List (Move E)) :
    let c := (begin l).playAll moves
    c.loop = l.playAll moves
    ∧ (∃ records : Trail,
        c.loop.trail = seed ++ records
        ∧ records.map (·.event) = c.heard.map (·.work.event)
        ∧ records.map (·.event) ++ c.loop.queue.map (·.event) = c.sent.map (·.work.event)
        ∧ ∀ r ∈ records,
            r.machineId = machine.id
            ∧ r.machineVersion = machine.version
            ∧ r.source = r.event.edge.source
            ∧ ((r.target = some r.event.edge.target ∧ r.failure = none)
              ∨ (r.target = none ∧ r.failure.isSome = true)))
    ∧ c.arrivals = moves.filterMap Move.arrival?
    ∧ c.emissions ++ c.loop.pending = c.returned.flatMap (·.events)
    ∧ ∀ more, c.loop.trail <+: (c.playAll more).loop.trail := by
  intro c
  have kept : Kept machine seed c := kept_playAll h moves
  have hevents : (c.heard.map Hearing.record).map (·.event) = c.heard.map (·.work.event) := by
    rw [List.map_map]
    apply List.map_congr_left
    intro x _
    exact x.record_wellFormed.1
  have hqueue : c.heard.map (·.work.event) ++ c.loop.queue.map (·.event)
      = c.sent.map (·.work.event) := by
    have := congrArg (List.map fun (work : Work) => work.event) kept.queue_eq
    simpa [Function.comp_def] using this
  refine ⟨playAll_loop _ _, ⟨_, kept.trail_eq, hevents, ?_, ?_⟩, ?_, kept.emitted_eq, ?_⟩
  . rw [hevents, hqueue]
  . intro r hr
    rcases List.mem_map.1 hr with ⟨x, hx, rfl⟩
    rcases x.record_wellFormed with ⟨hevent, hid, hversion, hsource, hends⟩
    rw [kept.heard_machine x hx] at hid hversion
    rw [hevent]
    exact ⟨hid, hversion, hsource, hends⟩
  . have harrivals := arrivals_playAll (begin l) moves
    have hbegin : (begin l).arrivals = [] := rfl
    rw [hbegin, List.nil_append] at harrivals
    exact harrivals
  . intro more
    exact trail_prefix_playAll c more

theorem trail_conserved_fanOut :
    Loop.start Sample.machine Sample.context [] .standard = .ok Sample.loop
    ∧ ∃ records : Trail,
        Sample.chronicle.loop.trail = [] ++ records
        ∧ records.map (·.event) = [Sample.entering, Sample.leaving]
        ∧ records.map (·.event) ++ Sample.chronicle.loop.queue.map (·.event)
          = [Sample.entering, Sample.leaving, Sample.entering, Sample.leaving] := by
  have hstart : Loop.start Sample.machine Sample.context [] .standard = .ok Sample.loop := by rfl
  rcases trail_conserved hstart Sample.moves with ⟨_, ⟨records, htrail, hheard, hsent, _⟩, _⟩
  refine ⟨hstart, records, htrail, ?_, ?_⟩
  . rw [hheard]
    decide +kernel
  . refine Eq.trans hsent ?_
    decide +kernel

end Chronicle

end Turnstile
