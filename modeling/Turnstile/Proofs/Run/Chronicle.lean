import Turnstile.Proofs.Run.Turn

/-!
This module contains the moves that the loop of a run and its surroundings can make, in any order, and the
chronicle of a run: what was sent, what was heard, and which actions were invoked. A chronicle only
watches its loop, so that every sequence of moves of a loop has one.
-/

namespace Turnstile

/-- What can happen next. Moves that the loop is not ready for change nothing. -/
inductive Move (E : Extension) where
  /-- An event from outside reaches the queue, also one that arrives when the loop is about to leave. -/
  | arrive (event : Event)
  | take (provide : Provide E)
  | settle (outcome : Except ActionError (Context E × Step))
  | emit
  | cancel
  | crash

namespace Loop

variable {E : Extension}

def play (l : Loop E) : Move E → Loop E
  | .arrive event => l.send .external [event]
  | .take provide => l.take provide
  | .settle outcome => l.settle outcome
  | .emit => l.emit
  | .cancel => l.cancel
  | .crash => l.crash

def playAll (l : Loop E) (moves : List (Move E)) : Loop E :=
  moves.foldl play l

/-- The events of the action that has returned that are not queued yet. -/
def pending (l : Loop E) : List Event :=
  match l.phase with
  | .emitting _ events => events
  | _ => []

end Loop

/-- An event as it was sent, with the position of the invocation whose action has emitted it. -/
structure Dispatch where
  work : Work
  sender : Option Nat

/-- An event that was taken off the queue, with the loop at that moment. -/
structure Hearing (E : Extension) where
  work : Work
  loop : Loop E
  provide : Provide E

namespace Hearing

variable {E : Extension}

def verdict (x : Hearing E) : Loop.Verdict :=
  x.loop.judge x.provide x.work

def record (x : Hearing E) : TrailRecord :=
  Loop.recordOf x.loop.machine x.work.event x.verdict

end Hearing

/-- An invocation of an action. Events are named by their positions among those that were heard. -/
structure Visit (E : Extension) where
  invocation : Invocation E
  /-- The loop that the action is invoked in, with the context and the trail that it is given. -/
  loop : Loop E
  /-- The event with which the loop was busy when it invoked the action. -/
  cause : Nat
  /-- The event for which the state was entered. -/
  entering : Nat

namespace Visit

variable {E : Extension}

def provenance (v : Visit E) : Provenance :=
  ⟨v.invocation.state.id, v.invocation.event, v.invocation.attempt⟩

end Visit

structure Chronicle (E : Extension) where
  loop : Loop E
  sent : List Dispatch
  heard : List (Hearing E)
  visits : List (Visit E)
  returned : List Step

namespace Chronicle

variable {E : Extension}

def begin (l : Loop E) : Chronicle E :=
  ⟨l, [], [], [], []⟩

def sender? (c : Chronicle E) (position : Nat) : Option (Visit E) :=
  ((c.sent[position]?).bind (·.sender)).bind fun n => c.visits[n]?

/-- The event for which a state is entered when an event is heard: this one, unless it is rejected. -/
def enteringOf (c : Chronicle E) (x : Hearing E) : Nat :=
  match x.verdict with
  | .accepted => c.heard.length
  | _ => ((c.sender? c.heard.length).map (·.entering)).getD c.heard.length

def visitOf (c : Chronicle E) (x : Hearing E) (next : Loop E) : List (Visit E) :=
  match next.phase with
  | .invoking i => [⟨i, next, c.heard.length, c.enteringOf x⟩]
  | _ => []

def hear (c : Chronicle E) (x : Hearing E) (next : Loop E) : Chronicle E :=
  { c with
    loop := next
    heard := c.heard ++ [x]
    visits := c.visits ++ c.visitOf x next }

def play (c : Chronicle E) (move : Move E) : Chronicle E :=
  let next := c.loop.play move
  match move with
  | .arrive event => { c with loop := next, sent := c.sent ++ [⟨⟨event, .external⟩, none⟩] }
  | .take provide =>
    match c.loop.phase, c.loop.queue with
    | .waiting, work :: _ => c.hear ⟨work, c.loop.dequeued, provide⟩ next
    | _, _ => { c with loop := next }
  | .settle outcome =>
    match c.loop.phase, outcome with
    | .invoking _, .ok (_, step) => { c with loop := next, returned := c.returned ++ [step] }
    | _, _ => { c with loop := next }
  | .emit =>
    match c.loop.phase with
    | .emitting p (event :: _) =>
      let dispatch : Dispatch := ⟨⟨event, .action p⟩, some (c.visits.length - 1)⟩
      { c with loop := next, sent := c.sent ++ [dispatch] }
    | _ => { c with loop := next }
  | .cancel | .crash => { c with loop := next }

def playAll (c : Chronicle E) (moves : List (Move E)) : Chronicle E :=
  moves.foldl play c

@[simp]
theorem play_loop (c : Chronicle E) (move : Move E) : (c.play move).loop = c.loop.play move := by
  cases move with
  | arrive | cancel | crash => rfl
  | take | settle | emit =>
    unfold play
    dsimp only
    split
    . rfl
    . rfl

@[simp]
theorem playAll_loop (c : Chronicle E) (moves : List (Move E)) :
    (c.playAll moves).loop = c.loop.playAll moves := by
  induction moves generalizing c with
  | nil => rfl
  | cons move rest ih =>
    have := ih (c.play move)
    rw [play_loop] at this
    exact this

theorem playAll_append (c : Chronicle E) (moves more : List (Move E)) :
    c.playAll (moves ++ more) = (c.playAll moves).playAll more := by
  unfold playAll
  rw [List.foldl_append]

theorem playAll_induction {P : Chronicle E → Prop} {c : Chronicle E} (hc : P c)
    (step : ∀ c move, P c → P (c.play move)) (moves : List (Move E)) : P (c.playAll moves) := by
  induction moves generalizing c with
  | nil => exact hc
  | cons move rest ih =>
    apply ih
    apply step
    exact hc

/-- All that a move can do to a chronicle. -/
inductive Course (c : Chronicle E) : Move E → Chronicle E → Prop where
  | arrive (event : Event) :
    Course c (.arrive event)
      { c with
        loop := { c.loop with queue := c.loop.queue ++ [⟨event, .external⟩] }
        sent := c.sent ++ [⟨⟨event, .external⟩, none⟩] }
  | hear {work : Work} {rest : List Work} {phase : Phase E} (provide : Provide E)
    (hphase : c.loop.phase = .waiting) (hqueue : c.loop.queue = work :: rest)
    (turn : Loop.Turn provide c.loop.dequeued work phase) :
    Course c (.take provide)
      (c.hear ⟨work, c.loop.dequeued, provide⟩
        { c.loop.dequeued.noted provide work with phase := phase })
  | settle {i : Invocation E} (context : Context E) (step : Step)
    (hphase : c.loop.phase = .invoking i) :
    Course c (.settle (.ok (context, step)))
      { c with
        loop := { c.loop with
          context := context
          phase := .emitting ⟨i.state.id, i.event, i.attempt⟩ step.events }
        returned := c.returned ++ [step] }
  | fail {i : Invocation E} (error : ActionError) (hphase : c.loop.phase = .invoking i) :
    Course c (.settle (.error error))
      { c with loop := { c.loop with phase := .finished (.error (.action error)) } }
  | emit {p : Provenance} {event : Event} {rest : List Event}
    (hphase : c.loop.phase = .emitting p (event :: rest)) :
    Course c .emit
      { c with
        loop := { c.loop with
          queue := c.loop.queue ++ [⟨event, .action p⟩]
          phase := .emitting p rest }
        sent := c.sent ++ [⟨⟨event, .action p⟩, some (c.visits.length - 1)⟩] }
  | emitted {p : Provenance} (hphase : c.loop.phase = .emitting p []) :
    Course c .emit { c with loop := { c.loop with phase := .waiting } }
  | cancel (hphase : c.loop.phase = .waiting ∨ ∃ i, c.loop.phase = .invoking i) :
    Course c .cancel { c with loop := { c.loop with phase := .cancelled } }
  | crash {i : Invocation E} (hphase : c.loop.phase = .invoking i) :
    Course c .crash { c with loop := { c.loop with phase := .crashed } }
  | idle (move : Move E) : Course c move c

theorem play_take (c : Chronicle E) (provide : Provide E) :
    Course c (.take provide) (c.play (.take provide)) := by
  unfold play
  dsimp only [Loop.play]
  split
  . next work rest hphase hqueue =>
    rcases Loop.process_turn provide c.loop.dequeued work with ⟨phase, turn, heq⟩
    rw [Loop.take_of_cons hphase hqueue, heq]
    exact .hear provide hphase hqueue turn
  . next h =>
    have : c.loop.take provide = c.loop := by
      unfold Loop.take
      split
      . next work rest hphase hqueue => exact absurd hqueue (h work rest hphase)
      . rfl
    rw [this]
    exact .idle _

theorem play_settle (c : Chronicle E) (outcome : Except ActionError (Context E × Step)) :
    Course c (.settle outcome) (c.play (.settle outcome)) := by
  unfold play
  dsimp only [Loop.play]
  cases hphase : c.loop.phase with
  | invoking i =>
    cases outcome with
    | error error =>
      have := Course.fail (c := c) error hphase
      simpa [Loop.settle, hphase, Loop.finish] using this
    | ok value =>
      have := Course.settle (c := c) value.1 value.2 hphase
      simpa [Loop.settle, hphase] using this
  | _ =>
    have := Course.idle (c := c) (.settle outcome)
    simpa [Loop.settle, hphase] using this

theorem play_emit (c : Chronicle E) : Course c .emit (c.play .emit) := by
  unfold play
  dsimp only [Loop.play]
  cases hphase : c.loop.phase with
  | emitting p events =>
    cases events with
    | nil =>
      have := Course.emitted hphase
      simpa [Loop.emit, hphase] using this
    | cons event rest =>
      have := Course.emit hphase
      simpa [Loop.emit, hphase, Loop.send] using this
  | _ =>
    have := Course.idle (c := c) .emit
    simpa [Loop.emit, hphase] using this

theorem play_cancel (c : Chronicle E) : Course c .cancel (c.play .cancel) := by
  unfold play
  dsimp only [Loop.play]
  unfold Loop.cancel
  split
  . next hphase => exact .cancel (.inl hphase)
  . next i hphase => exact .cancel (.inr ⟨i, hphase⟩)
  . exact .idle _

theorem play_crash (c : Chronicle E) : Course c .crash (c.play .crash) := by
  unfold play
  dsimp only [Loop.play]
  unfold Loop.crash
  split
  . next i hphase => exact .crash hphase
  . exact .idle _

theorem play_course (c : Chronicle E) (move : Move E) : Course c move (c.play move) := by
  cases move with
  | arrive event => exact .arrive event
  | take provide => exact play_take c provide
  | settle outcome => exact play_settle c outcome
  | emit => exact play_emit c
  | cancel => exact play_cancel c
  | crash => exact play_crash c

end Chronicle

/-!
A run in which an action emits two events of which the first is rejected, so that it is invoked once more.
Another event comes in while the two are queued.
-/

namespace Sample

def extension : Extension :=
  ⟨Unit, fun _ => true, Unit, Unit, Unit⟩

def machine : Machine :=
  ((Machine.new "gate" "1").addState { State.new ⟨"work"⟩ with action := some "act" }
    |>.addTransition (.new .start ⟨"work"⟩)
    |>.addTransition { Transition.new ⟨"work"⟩ .final with schema := .literal (.bool false) })

def context : Context extension :=
  Context.empty.addAction "act" (.custom ())

def loop : Loop extension :=
  ⟨machine, 3, context, [], [], .waiting⟩

def entering : Event := .new ⟨.start, ⟨"work"⟩⟩ .null

def leaving : Event := .new ⟨⟨"work"⟩, .final⟩ .null

def provide : Provide extension :=
  fun _ _ _ => .error ⟨"no schema"⟩

def moves : List (Move extension) :=
  [.arrive entering, .take provide, .settle (.ok (context, .fanOut [leaving, leaving])), .emit,
    .arrive entering, .emit, .emit, .take provide]

def chronicle : Chronicle extension :=
  (Chronicle.begin loop).playAll moves

end Sample

end Turnstile
