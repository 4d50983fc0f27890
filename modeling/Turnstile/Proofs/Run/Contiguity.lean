import Turnstile.Proofs.Run.Ending

/-!
This module contains the contiguity of trails. A run that is driven by one event, and whose actions send at
most one event on, has one event under way at a time, which leaves the state that was entered last.
-/

namespace Turnstile

namespace Trail

variable {trail : Trail} {r : TrailRecord}

theorem connected_iff {records : List TrailRecord} :
    connected records = true ↔
      ∀ (n : Nat) (a b : TrailRecord), records[n]? = some a → records[n + 1]? = some b →
        a.target = some b.source := by
  fun_induction connected records with
  | case1 first second rest ih =>
    simp only [Bool.and_eq_true, decide_eq_true_eq, ih]
    constructor
    . intro ⟨hfirst, hrest⟩ n a b ha hb
      cases n with
      | zero => simp_all
      | succ n => exact hrest n a b ha hb
    . intro h
      constructor
      . apply h 0
        . rfl
        . rfl
      . intro n
        exact h (n + 1)
  | case2 records h =>
    simp only [true_iff]
    intro n a b ha hb
    match records, h with
    | [], _ => simp at ha
    | [_], _ => simp at hb
    | first :: second :: rest, h => exact absurd rfl (h first second rest)

theorem isContiguous_iff :
    trail.isContiguous = true ↔
      ∀ (n : Nat) (a b : TrailRecord), trail.successes[n]? = some a →
        trail.successes[n + 1]? = some b → a.target = some b.source :=
  connected_iff

theorem connected_concat {records : List TrailRecord} (h : connected records = true)
    (hlast : ∀ last, records.getLast? = some last → last.target = some r.source) :
    connected (records ++ [r]) = true := by
  rw [connected_iff] at h ⊢
  intro n a b ha hb
  by_cases hn : n + 1 < records.length
  . rw [List.getElem?_append_left (by omega)] at ha
    rw [List.getElem?_append_left hn] at hb
    exact h n a b ha hb
  . -- The second of the two is the new record.
    have hlength := (List.getElem?_eq_some_iff.1 hb).1
    simp only [List.length_append, List.length_singleton] at hlength
    rw [List.getElem?_append_left (by omega)] at ha
    rw [List.getElem?_append_right (by omega)] at hb
    have hzero : n + 1 - records.length = 0 := by omega
    rw [hzero] at hb
    have hb : r = b := by simpa using hb
    subst hb
    apply hlast
    rw [List.getLast?_eq_getElem?, ← ha]
    congr 1
    omega

theorem successes_concat_of_success (h : r.isSuccess = true) :
    successes (trail ++ [r]) = trail.successes ++ [r] := by
  simp [successes, h]

theorem successes_concat_of_failure (h : r.isSuccess = false) :
    successes (trail ++ [r]) = trail.successes := by
  simp [successes, h]

theorem currentState_concat_of_success (h : r.isSuccess = true) :
    currentState (trail ++ [r]) = r.target := by
  simp [currentState, successes_concat_of_success h]

theorem currentState_concat_of_failure (h : r.isSuccess = false) :
    currentState (trail ++ [r]) = trail.currentState := by
  simp [currentState, successes_concat_of_failure h]

theorem isContiguous_concat_of_success (h : trail.isContiguous = true) (hr : r.isSuccess = true)
    (hsource : trail.successes = [] ∨ trail.currentState = some r.source) :
    isContiguous (trail ++ [r]) = true := by
  unfold isContiguous at h ⊢
  rw [successes_concat_of_success hr]
  apply connected_concat h
  intro last hlast
  rcases hsource with hnone | hsource
  . simp [hnone] at hlast
  . simpa [currentState, hlast] using hsource

theorem isContiguous_concat_of_failure (h : trail.isContiguous = true) (hr : r.isSuccess = false) :
    isContiguous (trail ++ [r]) = true := by
  unfold isContiguous at h ⊢
  rw [successes_concat_of_failure hr]
  exact h

end Trail

namespace Hearing

variable {E : Extension} {x : Hearing E}

theorem isSuccess_iff : x.record.isSuccess = true ↔ x.verdict = .accepted := by
  unfold record Loop.recordOf
  cases x.verdict with
  | _ => simp [TrailRecord.isSuccess]

theorem source_record : x.record.source = x.work.event.edge.source := by
  exact x.record_wellFormed.2.2.2.1

theorem target_of_accepted (h : x.verdict = .accepted) :
    x.record.target = some x.work.event.edge.target := by
  unfold record
  rw [h]
  rfl

end Hearing

namespace Loop

variable {E : Extension}

/-- Every action that returns waits, or sends one event on, which leaves its state. -/
def Forwards (l : Loop E) (moves : List (Move E)) : Prop :=
  ∀ before i context step after, moves = before ++ .settle (.ok (context, step)) :: after →
    (l.playAll before).phase = .invoking i →
      step = .wait ∨ ∃ event, step = .emit event ∧ event.edge.source = i.state.id

theorem forwards_nil (l : Loop E) : l.Forwards [] := by
  intro before i context step after h
  simp at h

theorem forwards_cons_iff {l : Loop E} {move : Move E} {rest : List (Move E)} :
    l.Forwards (move :: rest) ↔
      (∀ i context step, move = .settle (.ok (context, step)) → l.phase = .invoking i →
        step = .wait ∨ ∃ event, step = .emit event ∧ event.edge.source = i.state.id)
      ∧ (l.play move).Forwards rest := by
  constructor
  . intro h
    constructor
    . intro i context step hmove
      exact h [] i context step rest (by rw [hmove]; rfl)
    . intro before i context step after hrest
      exact h (move :: before) i context step after (by rw [hrest]; rfl)
  . intro ⟨hhead, hrest⟩ before i context step after hmoves
    cases before with
    | nil =>
      injection hmoves with hmove
      exact hhead i context step hmove
    | cons other before =>
      injection hmoves with hmove htail
      subst hmove
      exact hrest before i context step after htail

end Loop

namespace Chronicle

variable {E : Extension} {machine : Machine} {seed : Trail} {e : Event} {c d : Chronicle E}
  {move : Move E}

def HasAccepted (c : Chronicle E) : Prop :=
  ∃ x ∈ c.heard, x.verdict = .accepted

/-- Nothing has been sent so far. -/
structure Untouched (c : Chronicle E) : Prop where
  heard : c.heard = []
  queue : c.loop.queue = []
  phase : c.loop.phase = .waiting ∨ c.loop.phase = .cancelled

/-- One event at most is under way. It is the one from outside, or it leaves the state entered last. -/
structure Single (e : Event) (c : Chronicle E) : Prop where
  contiguous : c.loop.trail.isContiguous = true
  alone : c.loop.queue.length + c.loop.pending.length ≤ 1
  busy : ∀ i, c.loop.phase = .invoking i →
    c.loop.queue = [] ∧ c.loop.trail.currentState = some i.state.id
  emitting : ∀ p events, c.loop.phase = .emitting p events →
    c.loop.trail.currentState = some p.state ∧ ∀ event ∈ events, event.edge.source = p.state
  queued : ∀ work ∈ c.loop.queue, (c.heard = [] ∧ work = ⟨e, .external⟩)
    ∨ ∃ p, work.origin = .action p ∧ c.loop.trail.currentState = some p.state
      ∧ work.event.edge.source = p.state
  ended : c.HasAccepted →
    (c.loop.trail.currentState = some .final ↔ c.loop.result? = some (.ok ()))

theorem Untouched.begin {context : Context E} {config : RunConfig} {l : Loop E}
    (h : Loop.start machine context seed config = .ok l) : Untouched (begin l) := by
  have hl := Loop.start_eq h
  subst hl
  exact ⟨rfl, rfl, .inl rfl⟩

theorem Untouched.preserve (untouched : Untouched c) (course : Course c move d)
    (hmove : move.arrival? = none) : Untouched d := by
  have hqueue := untouched.queue
  have hphase := untouched.phase
  cases course with
  | arrive event => simp [Move.arrival?] at hmove
  | hear _ _ hother => simp [hqueue] at hother
  | cancel => exact ⟨untouched.heard, hqueue, .inr rfl⟩
  | idle => exact untouched
  | settle _ _ hother | fail _ hother | emit hother | emitted hother | crash hother =>
    simp [hother] at hphase

theorem Untouched.arrive (untouched : Untouched c) (kept : Kept machine seed c)
    (hseed : seed.isContiguous = true) (e : Event) : Single e (c.play (.arrive e)) := by
  have htrail : c.loop.trail = seed := by simpa [untouched.heard] using kept.trail_eq
  have hphase := untouched.phase
  have hqueue : (c.play (.arrive e)).loop.queue = [⟨e, .external⟩] := by
    simp [play, Loop.play, Loop.send, untouched.queue]
  have hpending : (c.play (.arrive e)).loop.pending = [] := by
    unfold Loop.pending
    split
    . next h =>
      have h : c.loop.phase = .emitting _ _ := h
      simp [h] at hphase
    . rfl
  constructor
  . rw [← htrail] at hseed
    exact hseed
  . rw [hqueue, hpending]
    simp
  . intro i h
    have h : c.loop.phase = .invoking i := h
    simp [h] at hphase
  . intro p events h
    have h : c.loop.phase = .emitting p events := h
    simp [h] at hphase
  . intro work hwork
    left
    rw [hqueue, List.mem_singleton] at hwork
    exact ⟨untouched.heard, hwork⟩
  . intro haccepted
    rcases haccepted with ⟨x, hx, _⟩
    have hx : x ∈ c.heard := hx
    simp [untouched.heard] at hx

theorem hasAccepted_hear {x : Hearing E} {next : Loop E} :
    HasAccepted (c.hear x next) ↔ c.HasAccepted ∨ x.verdict = .accepted := by
  unfold HasAccepted hear
  simp only [List.mem_append, List.mem_singleton]
  constructor
  . intro ⟨y, hy, hverdict⟩
    rcases hy with hy | hy
    . exact .inl ⟨y, hy, hverdict⟩
    . subst hy
      exact .inr hverdict
  . intro h
    rcases h with ⟨y, hy, hverdict⟩ | hverdict
    . exact ⟨y, .inl hy, hverdict⟩
    . exact ⟨x, .inr rfl, hverdict⟩

theorem Single.rest_eq_nil {work : Work} {rest : List Work} (single : Single e c)
    (hqueue : c.loop.queue = work :: rest) : rest = [] := by
  have halone := single.alone
  rw [hqueue, List.length_cons] at halone
  apply List.length_eq_zero_iff.1
  omega

theorem Single.leaves {work : Work} {rest : List Work} (kept : Kept machine seed c)
    (single : Single e c) (he : seed.successes = [] ∨ seed.currentState = some e.edge.source)
    (hqueue : c.loop.queue = work :: rest) :
    c.loop.trail.successes = [] ∨ c.loop.trail.currentState = some work.event.edge.source := by
  rcases single.queued work (by simp [hqueue]) with ⟨hheard, rfl⟩ | ⟨p, _, hstate, hsource⟩
  . have htrail : c.loop.trail = seed := by simpa [hheard] using kept.trail_eq
    rw [htrail]
    exact he
  . right
    rw [hstate, hsource]

theorem Single.provenance {work : Work} {rest : List Work} {p : Provenance} (single : Single e c)
    (hqueue : c.loop.queue = work :: rest) (horigin : work.origin = .action p) :
    c.loop.trail.currentState = some p.state := by
  rcases single.queued work (by simp [hqueue]) with ⟨_, rfl⟩ | ⟨q, hq, hstate, _⟩
  . cases horigin
  . rw [horigin] at hq
    injection hq with hq
    rw [hstate, hq]

/-- The event is off the queue, and the run is finished or has invoked an action. -/
theorem single_of_answered (hcontiguous : d.loop.trail.isContiguous = true)
    (hqueue : d.loop.queue = [])
    (hphase : (∃ i, d.loop.phase = .invoking i ∧ d.loop.trail.currentState = some i.state.id)
      ∨ ∃ result, d.loop.phase = .finished result)
    (hended : d.HasAccepted →
      (d.loop.trail.currentState = some .final ↔ d.loop.result? = some (.ok ()))) : Single e d := by
  refine ⟨hcontiguous, ?_, ?_, ?_, ?_, hended⟩
  . rcases hphase with ⟨i, hphase, _⟩ | ⟨result, hphase⟩
    . simp [hqueue, Loop.pending, hphase]
    . simp [hqueue, Loop.pending, hphase]
  . intro i hi
    rcases hphase with ⟨j, hphase, hstate⟩ | ⟨result, hphase⟩
    . rw [hphase] at hi
      injection hi with hi
      rw [← hi]
      exact ⟨hqueue, hstate⟩
    . simp [hphase] at hi
  . intro p events hp
    rcases hphase with ⟨i, hphase, _⟩ | ⟨result, hphase⟩
    . simp [hphase] at hp
    . simp [hphase] at hp
  . simp [hqueue]

theorem Single.hear_accepted {work : Work} {rest : List Work} {phase : Phase E}
    {provide : Provide E} {next : Loop E} {x : Hearing E} (single : Single e c)
    (hqueue : c.loop.queue = work :: rest)
    (hsource : c.loop.trail.successes = []
      ∨ c.loop.trail.currentState = some work.event.edge.source)
    (turn : Loop.Turn provide c.loop.dequeued work phase)
    (hverdict : c.loop.dequeued.judge provide work = .accepted)
    (hx : x = ⟨work, c.loop.dequeued, provide⟩)
    (hnext : next = { c.loop.dequeued.noted provide work with phase := phase }) :
    Single e (c.hear x next) := by
  have hxverdict : x.verdict = .accepted := by rw [hx]; exact hverdict
  have hsuccess := Hearing.isSuccess_iff.2 hxverdict
  have htrail : next.trail = c.loop.trail ++ [x.record] := by rw [hnext, hx]; rfl
  have hstate : next.trail.currentState = some work.event.edge.target := by
    rw [htrail, Trail.currentState_concat_of_success hsuccess, Hearing.target_of_accepted hxverdict, hx]
  apply single_of_answered
  . show next.trail.isContiguous = true
    rw [htrail]
    apply Trail.isContiguous_concat_of_success single.contiguous hsuccess
    rw [Hearing.source_record, hx]
    exact hsource
  . show next.queue = []
    rw [hnext]
    simp [Loop.noted, Loop.dequeued, hqueue, single.rest_eq_nil hqueue]
  . show (∃ i, next.phase = _ ∧ next.trail.currentState = _) ∨ ∃ result, next.phase = _
    rw [hstate, hnext]
    cases turn with
    | enter _ _ hi => exact .inl ⟨_, rfl, by rw [hi.state_id]⟩
    | retry hother => simp [hverdict] at hother
    | _ => exact .inr ⟨_, rfl⟩
  . intro _
    show next.trail.currentState = _ ↔ next.result? = _
    -- The state is final exactly if the event was taken to be terminal.
    rw [hstate, Hearing.target_eq_final_iff, Loop.result?_eq_some_iff, hnext]
    cases turn with
    | complete _ hend => simp [hend]
    | enter _ hend => simp [hend]
    | barred _ hend => simp [hend]
    | unusable hother | retry hother | barredRetry hother | giveUp hother => simp [hverdict] at hother

theorem Single.hear_rejected {work : Work} {rest : List Work} {phase : Phase E}
    {provide : Provide E} {next : Loop E} {x : Hearing E} (single : Single e c)
    (hphase : c.loop.phase = .waiting) (hqueue : c.loop.queue = work :: rest)
    (turn : Loop.Turn provide c.loop.dequeued work phase)
    (hverdict : c.loop.dequeued.judge provide work ≠ .accepted)
    (hx : x = ⟨work, c.loop.dequeued, provide⟩)
    (hnext : next = { c.loop.dequeued.noted provide work with phase := phase }) :
    Single e (c.hear x next) := by
  have hxverdict : x.verdict ≠ .accepted := by rw [hx]; exact hverdict
  have hfailure : x.record.isSuccess = false := by
    rw [← Bool.not_eq_true, Hearing.isSuccess_iff]
    exact hxverdict
  have htrail : next.trail = c.loop.trail ++ [x.record] := by rw [hnext, hx]; rfl
  have hstate : next.trail.currentState = c.loop.trail.currentState := by
    rw [htrail, Trail.currentState_concat_of_failure hfailure]
  apply single_of_answered
  . show next.trail.isContiguous = true
    rw [htrail]
    exact Trail.isContiguous_concat_of_failure single.contiguous hfailure
  . show next.queue = []
    rw [hnext]
    simp [Loop.noted, Loop.dequeued, hqueue, single.rest_eq_nil hqueue]
  . show (∃ i, next.phase = _ ∧ next.trail.currentState = _) ∨ ∃ result, next.phase = _
    rw [hstate, hnext]
    cases turn with
    | enter hother => exact absurd hother hverdict
    | retry _ horigin _ hi =>
      -- The event under way came from the state that is entered last, which is where it goes back to.
      exact .inl ⟨_, rfl, by rw [single.provenance hqueue horigin, hi.state_id]⟩
    | _ => exact .inr ⟨_, rfl⟩
  . intro haccepted
    rw [hasAccepted_hear] at haccepted
    have hbefore : c.loop.trail.currentState ≠ some .final := by
      have hended := single.ended (haccepted.resolve_right hxverdict)
      rw [Ne, hended, Loop.result?_eq_some_iff, hphase]
      simp
    show next.trail.currentState = _ ↔ next.result? = _
    rw [hstate, Loop.result?_eq_some_iff, hnext]
    cases turn with
    | complete hother => exact absurd hother hverdict
    | _ => simp [hbefore]

theorem Single.not_final (single : Single e c) (hphase : c.loop.phase ≠ .finished (.ok ()))
    (haccepted : c.HasAccepted) : c.loop.trail.currentState ≠ some .final := by
  rw [Ne, single.ended haccepted, Loop.result?_eq_some_iff]
  exact hphase

theorem Single.settle {i : Invocation E} (single : Single e c) (hphase : c.loop.phase = .invoking i)
    (context : Context E) (step : Step)
    (hstep : step = .wait ∨ ∃ event, step = .emit event ∧ event.edge.source = i.state.id) :
    Single e { c with
      loop := { c.loop with
        context := context
        phase := .emitting ⟨i.state.id, i.event, i.attempt⟩ step.events }
      returned := c.returned ++ [step] } := by
  rcases single.busy i hphase with ⟨hqueue, hstate⟩
  refine ⟨single.contiguous, ?_, ?_, ?_, single.queued, ?_⟩
  . rcases hstep with rfl | ⟨event, rfl, _⟩
    . simp [hqueue, Loop.pending, Step.events]
    . simp [hqueue, Loop.pending, Step.events]
  . intro j hj
    cases hj
  . intro p events hp
    injection hp with hp hevents
    subst hp hevents
    refine ⟨hstate, ?_⟩
    rcases hstep with rfl | ⟨event, rfl, hsource⟩
    . simp [Step.events]
    . simpa [Step.events] using hsource
  . intro haccepted
    have hbefore := single.not_final (by simp [hphase]) haccepted
    simp [hbefore, Loop.result?]

theorem Single.emit {p : Provenance} {event : Event} {rest : List Event} (single : Single e c)
    (hphase : c.loop.phase = .emitting p (event :: rest)) (sent : List Dispatch) :
    Single e { c with
      loop := { c.loop with
        queue := c.loop.queue ++ [⟨event, .action p⟩]
        phase := .emitting p rest }
      sent := sent } := by
  rcases single.emitting p _ hphase with ⟨hstate, hsource⟩
  have halone := single.alone
  refine ⟨single.contiguous, ?_, ?_, ?_, ?_, ?_⟩
  . simp [Loop.pending, hphase] at halone ⊢
    omega
  . intro i hi
    cases hi
  . intro q events hq
    injection hq with hq hevents
    subst hq hevents
    refine ⟨hstate, ?_⟩
    intro other hother
    exact hsource other (List.mem_cons_of_mem _ hother)
  . intro work hwork
    rw [List.mem_append, List.mem_singleton] at hwork
    rcases hwork with hwork | rfl
    . exact single.queued work hwork
    . exact .inr ⟨p, rfl, hstate, hsource event (by simp)⟩
  . intro haccepted
    have hbefore := single.not_final (by simp [hphase]) haccepted
    simp [hbefore, Loop.result?]

/-- The loop stops to be busy with an action, and everything else stays. -/
theorem Single.rest {phase : Phase E} (single : Single e c)
    (hbefore : c.loop.phase ≠ .finished (.ok ()))
    (hphase : phase = .waiting ∨ phase = .cancelled ∨ phase = .crashed
      ∨ ∃ error, phase = .finished (.error error)) :
    Single e { c with loop := { c.loop with phase := phase } } := by
  have halone := single.alone
  refine ⟨single.contiguous, ?_, ?_, ?_, single.queued, ?_⟩
  . rcases hphase with rfl | rfl | rfl | ⟨error, rfl⟩
    all_goals
      simp only [Loop.pending, List.length_nil]
      omega
  . intro i hi
    rcases hphase with rfl | rfl | rfl | ⟨error, rfl⟩
    all_goals cases hi
  . intro p events hp
    rcases hphase with rfl | rfl | rfl | ⟨error, rfl⟩
    all_goals cases hp
  . intro haccepted
    have hstate := single.not_final hbefore haccepted
    rcases hphase with rfl | rfl | rfl | ⟨error, rfl⟩
    all_goals simp [hstate, Loop.result?]

theorem Single.preserve (kept : Kept machine seed c) (single : Single e c)
    (he : seed.successes = [] ∨ seed.currentState = some e.edge.source) (course : Course c move d)
    (hmove : move.arrival? = none)
    (hforwards : ∀ i context step, move = .settle (.ok (context, step)) →
      c.loop.phase = .invoking i →
        step = .wait ∨ ∃ event, step = .emit event ∧ event.edge.source = i.state.id) :
    Single e d := by
  cases course with
  | arrive event => simp [Move.arrival?] at hmove
  | @hear work rest phase provide hphase hqueue turn =>
    by_cases hverdict : c.loop.dequeued.judge provide work = .accepted
    . have hsource := single.leaves kept he hqueue
      exact single.hear_accepted hqueue hsource turn hverdict rfl rfl
    . exact single.hear_rejected hphase hqueue turn hverdict rfl rfl
  | settle context step hphase =>
    exact single.settle hphase context step (hforwards _ context step rfl hphase)
  | fail error hphase =>
    apply single.rest
    . simp [hphase]
    . exact .inr (.inr (.inr ⟨_, rfl⟩))
  | emit hphase => exact single.emit hphase _
  | emitted hphase =>
    apply single.rest
    . simp [hphase]
    . exact .inl rfl
  | cancel hphase =>
    apply single.rest
    . rcases hphase with hphase | ⟨i, hphase⟩ <;> simp [hphase]
    . exact .inr (.inl rfl)
  | crash hphase =>
    apply single.rest
    . simp [hphase]
    . exact .inr (.inr (.inl rfl))
  | idle => exact single

theorem Single.playAll {moves : List (Move E)} (kept : Kept machine seed c) (single : Single e c)
    (he : seed.successes = [] ∨ seed.currentState = some e.edge.source)
    (hmoves : moves.filterMap Move.arrival? = []) (hforwards : c.loop.Forwards moves) :
    Single e (c.playAll moves) := by
  induction moves generalizing c with
  | nil => exact single
  | cons move rest ih =>
    have course := play_course c move
    rw [List.filterMap_eq_nil_iff] at hmoves
    rw [Loop.forwards_cons_iff] at hforwards
    apply ih
    . exact kept.preserve course
    . exact single.preserve kept he course (hmoves move (by simp)) hforwards.1
    . rw [List.filterMap_eq_nil_iff]
      intro other hother
      exact hmoves other (List.mem_cons_of_mem _ hother)
    . rw [play_loop]
      exact hforwards.2

theorem Untouched.single (untouched : Untouched c) (kept : Kept machine seed c)
    (hseed : seed.isContiguous = true) : Single e c := by
  have htrail : c.loop.trail = seed := by simpa [untouched.heard] using kept.trail_eq
  have hphase := untouched.phase
  constructor
  . rw [htrail]
    exact hseed
  . rcases hphase with hphase | hphase <;> simp [untouched.queue, Loop.pending, hphase]
  . intro i hi
    simp [hi] at hphase
  . intro p events hp
    simp [hp] at hphase
  . simp [untouched.queue]
  . intro haccepted
    rcases haccepted with ⟨x, hx, _⟩
    simp [untouched.heard] at hx

/-- Up to the event from outside nothing is sent, and from then on there is one event under way. -/
theorem single_playAll {moves : List (Move E)} (kept : Kept machine seed c)
    (untouched : Untouched c) (hseed : seed.isContiguous = true)
    (he : seed.successes = [] ∨ seed.currentState = some e.edge.source)
    (hmoves : moves.filterMap Move.arrival? <+: [e]) (hforwards : c.loop.Forwards moves) :
    Single e (c.playAll moves) := by
  induction moves generalizing c with
  | nil => exact untouched.single kept hseed
  | cons move rest ih =>
    have hkept := kept.preserve (play_course c move)
    have htail := (Loop.forwards_cons_iff.1 hforwards).2
    rw [← play_loop] at htail
    cases harrival : move.arrival? with
    | none =>
      rw [List.filterMap_cons_none harrival] at hmoves
      exact ih hkept (untouched.preserve (play_course c move) harrival) hmoves htail
    | some event =>
      rw [List.filterMap_cons_some harrival, List.cons_prefix_cons, List.prefix_nil] at hmoves
      rcases hmoves with ⟨rfl, hrest⟩
      cases move with
      | arrive other =>
        injection harrival with harrival
        subst harrival
        exact Single.playAll (c := c.play (.arrive other)) hkept (untouched.arrive kept hseed other) he
          hrest htail
      | _ => cases harrival

/--
A run that goes on from a contiguous trail with one event that fits it, and whose actions wait or send one
event on, keeps its trail contiguous at every moment, whatever is rejected and tried again. One event at most
is under way; once an event was accepted it leaves the state that was entered last, and this state is final
exactly if the run has completed. A trail is contiguous if each success starts where the one before it ended.
-/
theorem trail_contiguous {context : Context E} {config : RunConfig} {l : Loop E}
    (h : Loop.start machine context seed config = .ok l) (hseed : seed.isContiguous = true)
    (he : seed.successes = [] ∨ seed.currentState = some e.edge.source) {moves : List (Move E)}
    (hmoves : moves.filterMap Move.arrival? <+: [e]) (hforwards : l.Forwards moves) :
    let m := l.playAll moves
    m.trail.isContiguous = true
    ∧ m.queue.length + m.pending.length ≤ 1
    ∧ (∃ records : Trail, m.trail = seed ++ records
        ∧ ((∃ r ∈ records, r.failure = none) →
          (∀ event ∈ m.queue.map (·.event) ++ m.pending,
            m.trail.currentState = some event.edge.source)
          ∧ (m.trail.currentState = some .final ↔ m.result? = some (.ok ()))))
    ∧ ∀ trail : Trail, trail.isContiguous = true ↔
        ∀ (n : Nat) (a b : TrailRecord), trail.successes[n]? = some a →
          trail.successes[n + 1]? = some b → a.target = some b.source := by
  intro m
  have kept : Kept machine seed ((begin l).playAll moves) := kept_playAll h moves
  have single : Single e ((begin l).playAll moves) :=
    single_playAll (Kept.begin h) (Untouched.begin h) hseed he hmoves hforwards
  have hm : ((begin l).playAll moves).loop = m := playAll_loop _ _
  rw [← hm]
  generalize (begin l).playAll moves = c at kept single
  refine ⟨single.contiguous, single.alone, ⟨_, kept.trail_eq, ?_⟩, fun _ => Trail.isContiguous_iff⟩
  intro ⟨r, hr, hsuccess⟩
  rcases List.mem_map.1 hr with ⟨x, hx, rfl⟩
  have haccepted : c.HasAccepted := by
    refine ⟨x, hx, Hearing.isSuccess_iff.1 ?_⟩
    simp [TrailRecord.isSuccess, hsuccess]
  refine ⟨?_, single.ended haccepted⟩
  intro event hevent
  rw [List.mem_append] at hevent
  rcases hevent with hevent | hevent
  . rcases List.mem_map.1 hevent with ⟨work, hwork, rfl⟩
    rcases single.queued work hwork with ⟨hnone, _⟩ | ⟨p, _, hstate, hsource⟩
    . simp [hnone] at hx
    . rw [hstate, hsource]
  . unfold Loop.pending at hevent
    split at hevent
    . next p events hphase =>
      rcases single.emitting p events hphase with ⟨hstate, hsource⟩
      rw [hstate, hsource event hevent]
    . cases hevent

end Chronicle

/-!
A run that goes on where another has ended. Its action first sends an event along a transition that does not
exist, and is then invoked once more.
-/

namespace Sample

def passage : Machine :=
  ((Machine.new "passage" "1").addState { State.new ⟨"work"⟩ with action := some "act" }
    |>.addTransition (.new .start ⟨"work"⟩)
    |>.addTransition (.new ⟨"work"⟩ .final))

def earlier : Trail :=
  [⟨"passage", "0", ⟨"work"⟩, some .start, .new ⟨⟨"work"⟩, .start⟩ .null, none⟩]

def astray : Event := .new ⟨⟨"work"⟩, ⟨"nowhere"⟩⟩ .null

def passing : Loop extension :=
  ⟨passage, 3, context, earlier, [], .waiting⟩

def passingMoves : List (Move extension) :=
  [.arrive entering, .take provide, .settle (.ok (context, .emit astray)), .emit, .emit, .take provide,
    .settle (.ok (context, .emit leaving)), .emit, .emit, .take provide]

theorem passing_forwards : passing.Forwards passingMoves := by
  unfold passingMoves
  iterate 10
    rw [Loop.forwards_cons_iff]
    refine ⟨?_, ?_⟩
    rotate_left
  . exact Loop.forwards_nil _
  all_goals intro i context step hmove hphase
  all_goals cases hmove
  -- Two moves are left, by which the action sends an event on.
  . cases hphase
    exact .inr ⟨_, rfl, rfl⟩
  . cases hphase
    exact .inr ⟨_, rfl, rfl⟩

end Sample

namespace Chronicle

theorem trail_contiguous_retry :
    Loop.start Sample.passage Sample.context Sample.earlier .standard = .ok Sample.passing
    ∧ Sample.earlier.isContiguous = true
    ∧ Sample.earlier.currentState = some Sample.entering.edge.source
    ∧ Sample.passing.Forwards Sample.passingMoves
    ∧ (Sample.passing.playAll Sample.passingMoves).trail.map (·.target)
      = [some .start, some ⟨"work"⟩, none, some .final]
    ∧ (Sample.passing.playAll Sample.passingMoves).trail.isContiguous = true := by
  have hstart : Loop.start Sample.passage Sample.context Sample.earlier .standard
      = .ok Sample.passing := by rfl
  have hseed : Sample.earlier.isContiguous = true := by rfl
  have hstate : Sample.earlier.currentState = some Sample.entering.edge.source := by rfl
  have hmoves : Sample.passingMoves.filterMap Move.arrival? <+: [Sample.entering] := by
    exact List.prefix_refl _
  have hall := trail_contiguous hstart hseed (.inr hstate) hmoves Sample.passing_forwards
  refine ⟨hstart, hseed, hstate, Sample.passing_forwards, ?_, hall.1⟩
  decide +kernel

end Chronicle

end Turnstile
