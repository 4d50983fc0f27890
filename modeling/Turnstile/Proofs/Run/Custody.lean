import Turnstile.Proofs.Run.StopHooks
import Turnstile.Proofs.Run.Timeline

/-!
This module contains runs in custody. The loop goes on by itself, while others submit events, wait for the outcome
and stop the run. To wait and to stop takes time, in which everything else can happen. A timeline is one way in
which this can go.
-/

namespace Turnstile

/-- How far somebody has come who waits for the outcome. -/
inductive Waiter (E : Extension) where
  | watching
  /-- The outcome is known, and the trail is still to be read. -/
  | reading (outcome : Outcome E)
  | answered (outcome : Outcome E) (trail : Trail)

structure Shutdown (E : Extension) where
  context : Context E
  trail : Trail
  report : StopReport

/-- How far somebody has come who stops the run. -/
inductive Stopper (E : Extension) where
  /-- The loop has been told, and is still to leave. -/
  | joining
  | returned (result : Except RunError (Shutdown E))

structure Custody (E : Extension) (σ : Type) where
  run : Run E
  /-- The loop has an event in hand, and does not look around before it is done with it. -/
  busy : Bool
  /-- The loop has left, and there is nobody to take an event. -/
  left : Bool
  waiters : List (Waiter E)
  stoppers : List (Stopper E)
  /-- The stop hooks that were run, in their order. -/
  hookRuns : List (HookRun E σ)

/-- What can happen to a run. What is not possible at the moment changes nothing. -/
inductive Deed (E : Extension) (σ : Type) where
  /-- The loop goes on by one step. -/
  | go (provide : Provide E)
  | settle (outcome : Except ActionError (Context E × Step))
  | crash
  | submit (event : Event)
  | wait
  /-- A waiter looks for the outcome, and does so for the last time if it is late. -/
  | look (n : Nat) (late : Bool)
  | read (n : Nat)
  | stop
  /-- Somebody who stops the run sees that the loop has left, and runs the stop hooks. -/
  | join (n : Nat) (world : σ)

namespace Custody

variable {E : Extension} {σ : Type}

def begin (run : Run E) : Custody E σ :=
  ⟨run, false, false, [], [], []⟩

def setLoop (c : Custody E σ) (loop : Loop E) : Custody E σ :=
  { c with run := { c.run with loop } }

/-- What there is to see of the outcome. A loop that leaves without a result is only seen to be gone. -/
def outcome? (c : Custody E σ) : Option (Outcome E) :=
  match c.run.outcome? with
  | some .stopped => if c.left then some .stopped else none
  | outcome => outcome

def go (c : Custody E σ) (provide : Provide E) : Custody E σ :=
  match c.run.loop.phase with
  | .waiting =>
    if c.busy then { c.setLoop (c.run.loop.take provide) with busy := false }
    else if c.run.released then c.setLoop c.run.loop.cancel
    else { c with busy := !c.run.loop.queue.isEmpty }
  | .invoking _ => if c.run.released then c.setLoop c.run.loop.cancel else c
  | .emitting _ _ => c.setLoop c.run.loop.emit
  | .finished _ | .cancelled | .crashed => { c with left := true }

/-- Events reach the queue until the loop has left, even if nobody will take them off it. -/
def submit (c : Custody E σ) (event : Event) : Except RunError (Custody E σ) :=
  if c.left then .error .notRunning else .ok (c.setLoop (c.run.loop.send .external [event]))

def look (c : Custody E σ) (n : Nat) (late : Bool) : Custody E σ :=
  match c.waiters[n]?, c.outcome? with
  | some .watching, some outcome => { c with waiters := c.waiters.set n (.reading outcome) }
  | some .watching, none =>
    if late then { c with waiters := c.waiters.set n (.reading .timedOut) } else c
  | _, _ => c

def read (c : Custody E σ) (n : Nat) : Custody E σ :=
  match c.waiters[n]? with
  | some (.reading outcome) =>
    { c with waiters := c.waiters.set n (.answered outcome c.run.loop.trail) }
  | _ => c

/-- Tells the loop to leave. This can be done once. -/
def stop (c : Custody E σ) : Custody E σ :=
  if c.run.released then { c with stoppers := c.stoppers ++ [.returned (.error .notRunning)] }
  else { c with run := { c.run with released := true }, stoppers := c.stoppers ++ [.joining] }

/-- Runs the stop hooks, unless they are lost since an action has crashed. -/
def shut (release : RunRelease E σ) (c : Custody E σ) (n : Nat) (world : σ) : Custody E σ :=
  match c.run.loop.phase with
  | .crashed =>
    let result := Except.error (.internal "the run loop has crashed")
    { c with stoppers := c.stoppers.set n (.returned result) }
  | _ =>
    let timeout := c.run.config.hookDuration
    let hooks := c.run.loop.context.stopHooks.reverse
    let (context, report, _) := c.run.loop.context.runStopHooks release timeout world
    { c with
      run := { c.run with lifecycle := .stopped }
      stoppers := c.stoppers.set n (.returned (.ok ⟨context, c.run.loop.trail, report⟩))
      hookRuns := c.hookRuns ++ Turnstile.hookRuns release timeout hooks world }

def join (release : RunRelease E σ) (c : Custody E σ) (n : Nat) (world : σ) : Custody E σ :=
  match c.stoppers[n]?, c.left with
  | some .joining, true => c.shut release n world
  | _, _ => c

def play (release : RunRelease E σ) (c : Custody E σ) : Deed E σ → Custody E σ
  | .go provide => c.go provide
  | .settle outcome => c.setLoop (c.run.loop.settle outcome)
  | .crash => c.setLoop c.run.loop.crash
  | .submit event =>
    match c.submit event with
    | .ok next => next
    | .error _ => c
  | .wait => { c with waiters := c.waiters ++ [.watching] }
  | .look n late => c.look n late
  | .read n => c.read n
  | .stop => c.stop
  | .join n world => c.join release n world

def playAll (release : RunRelease E σ) (c : Custody E σ) (deeds : List (Deed E σ)) : Custody E σ :=
  deeds.foldl (play release) c

variable {release : RunRelease E σ} {c d : Custody E σ} {deed : Deed E σ}

theorem playAll_append (c : Custody E σ) (deeds more : List (Deed E σ)) :
    c.playAll release (deeds ++ more) = (c.playAll release deeds).playAll release more := by
  unfold playAll
  rw [List.foldl_append]

theorem playAll_induction {P : Custody E σ → Prop} (hc : P c)
    (step : ∀ c deed, P c → P (c.play release deed)) (deeds : List (Deed E σ)) :
    P (c.playAll release deeds) := by
  induction deeds generalizing c with
  | nil => exact hc
  | cons deed rest ih => exact ih (step c deed hc)

/-! ## The loop in custody -/

/-- What a deed is to the loop, if it is a move of the loop at all. -/
def move? (c : Custody E σ) : Deed E σ → Option (Move E)
  | .go provide =>
    match c.run.loop.phase with
    | .waiting => if c.busy then some (.take provide) else if c.run.released then some .cancel else none
    | .invoking _ => if c.run.released then some .cancel else none
    | .emitting _ _ => some .emit
    | _ => none
  | .settle outcome => some (.settle outcome)
  | .crash => some .crash
  | .submit event => if c.left then none else some (.arrive event)
  | _ => none

theorem shut_frame (release : RunRelease E σ) (c : Custody E σ) (n : Nat) (world : σ) :
    (c.shut release n world).run.loop = c.run.loop
    ∧ (c.shut release n world).run.config = c.run.config
    ∧ (c.shut release n world).run.released = c.run.released
    ∧ (c.shut release n world).busy = c.busy
    ∧ (c.shut release n world).left = c.left
    ∧ (c.shut release n world).waiters = c.waiters := by
  unfold shut
  split
  . exact ⟨rfl, rfl, rfl, rfl, rfl, rfl⟩
  . exact ⟨rfl, rfl, rfl, rfl, rfl, rfl⟩

theorem loop_join (c : Custody E σ) (n : Nat) (world : σ) :
    (c.join release n world).run.loop = c.run.loop := by
  unfold join
  split
  . exact (c.shut_frame release n world).1
  . rfl

theorem loop_look (c : Custody E σ) (n : Nat) (late : Bool) : (c.look n late).run = c.run := by
  unfold look
  split
  . rfl
  . split
    . rfl
    . rfl
  . rfl

theorem loop_read (c : Custody E σ) (n : Nat) : (c.read n).run = c.run := by
  unfold read
  split
  . rfl
  . rfl

theorem loop_stop (c : Custody E σ) : c.stop.run.loop = c.run.loop := by
  unfold stop
  split
  . rfl
  . rfl

theorem loop_go (c : Custody E σ) (provide : Provide E) :
    (c.go provide).run.loop = c.run.loop.playAll (c.move? (.go provide)).toList := by
  unfold go
  simp only [move?]
  cases hphase : c.run.loop.phase with
  | waiting =>
    dsimp only
    split
    . rfl
    . split
      . rfl
      . rfl
  | invoking i =>
    dsimp only
    split
    . rfl
    . rfl
  | _ => rfl

theorem loop_play (c : Custody E σ) (deed : Deed E σ) :
    (c.play release deed).run.loop = c.run.loop.playAll (c.move? deed).toList := by
  cases deed with
  | go provide => exact c.loop_go provide
  | settle | crash | wait => rfl
  | submit event =>
    simp only [play, submit, move?]
    cases c.left with
    | _ => rfl
  | look n late => exact congrArg Run.loop (c.loop_look n late)
  | read n => exact congrArg Run.loop (c.loop_read n)
  | stop => exact c.loop_stop
  | join n world => exact c.loop_join n world

/-- All that a deed can do. -/
inductive Course (release : RunRelease E σ) (c : Custody E σ) : Deed E σ → Custody E σ → Prop where
  | take (provide : Provide E) (hphase : c.run.loop.phase = .waiting) (hbusy : c.busy = true) :
    Course release c (.go provide) { c.setLoop (c.run.loop.take provide) with busy := false }
  | pick (provide : Provide E) (hphase : c.run.loop.phase = .waiting) (hreleased : c.run.released = false) :
    Course release c (.go provide) { c with busy := !c.run.loop.queue.isEmpty }
  | leave (provide : Provide E) (hclosed : c.run.loop.isOpen = false) :
    Course release c (.go provide) { c with left := true }
  | move {deed : Deed E σ} (move : Move E) (hmove : c.move? deed = some move)
    (htake : ∀ provide, move ≠ .take provide) :
    Course release c deed (c.setLoop (c.run.loop.play move))
  | wait : Course release c .wait { c with waiters := c.waiters ++ [.watching] }
  | look {n : Nat} {late : Bool} {outcome : Outcome E} (hn : c.waiters[n]? = some .watching)
    (h : c.outcome? = some outcome ∨ (c.outcome? = none ∧ outcome = .timedOut)) :
    Course release c (.look n late) { c with waiters := c.waiters.set n (.reading outcome) }
  | read {n : Nat} {outcome : Outcome E} (hn : c.waiters[n]? = some (.reading outcome)) :
    Course release c (.read n) { c with waiters := c.waiters.set n (.answered outcome c.run.loop.trail) }
  | stop (hreleased : c.run.released = false) :
    Course release c .stop
      { c with run := { c.run with released := true }, stoppers := c.stoppers ++ [.joining] }
  | spare (hreleased : c.run.released = true) :
    Course release c .stop { c with stoppers := c.stoppers ++ [.returned (.error .notRunning)] }
  | shut {n : Nat} (world : σ) (hn : c.stoppers[n]? = some .joining) (hleft : c.left = true) :
    Course release c (.join n world) (c.shut release n world)
  | idle (deed : Deed E σ) : Course release c deed c

theorem go_course (c : Custody E σ) (provide : Provide E) : Course release c (.go provide) (c.go provide) := by
  unfold go
  split
  . next hphase =>
    split
    . next hbusy => exact .take provide hphase hbusy
    . next hbusy =>
      split
      . next hreleased => exact .move .cancel (by simp [move?, *]) nofun
      . next hreleased => exact .pick provide hphase (by simpa using hreleased)
  . next i hphase =>
    split
    . next hreleased => exact .move .cancel (by simp [move?, *]) nofun
    . exact .idle _
  . next p events hphase => exact .move .emit (by simp [move?, *]) nofun
  all_goals
    next hphase => exact .leave provide (by simp [Loop.isOpen, hphase])

theorem play_course (release : RunRelease E σ) (c : Custody E σ) (deed : Deed E σ) :
    Course release c deed (c.play release deed) := by
  cases deed with
  | go provide => exact go_course c provide
  | settle outcome => exact .move (.settle outcome) rfl nofun
  | crash => exact .move .crash rfl nofun
  | submit event =>
    simp only [play, submit]
    cases hleft : c.left with
    | true => exact .idle _
    | false => exact .move (.arrive event) (by simp [move?, hleft]) nofun
  | wait => exact .wait
  | look n late =>
    simp only [play, look]
    split
    . next outcome hn houtcome => exact .look hn (.inl houtcome)
    . next hn houtcome =>
      split
      . exact .look hn (.inr ⟨houtcome, rfl⟩)
      . exact .idle _
    . exact .idle _
  | read n =>
    simp only [play, read]
    split
    . next outcome hn => exact .read hn
    . exact .idle _
  | stop =>
    simp only [play, stop]
    split
    . next hreleased => exact .spare hreleased
    . next hreleased => exact .stop (by simpa using hreleased)
  | join n world =>
    simp only [play, join]
    split
    . next hn hleft => exact .shut world hn hleft
    . exact .idle _

end Custody

/-! ## Timelines -/

namespace Loop

variable {E : Extension} {l : Loop E}

theorem phase_emitAll (h : l.isOpen = true) :
    l.emitAll.phase = .waiting ∨ ∃ i, l.emitAll.phase = .invoking i := by
  unfold isOpen at h
  unfold emitAll
  split at h <;> simp_all [send]

theorem isOpen_cancel_emitAll (l : Loop E) : l.emitAll.cancel.isOpen = false := by
  cases hphase : l.phase with
  | _ => simp [emitAll, cancel, isOpen, send, hphase]

end Loop

namespace Custody

variable {E : Extension} {σ : Type} {release : RunRelease E σ} {c d : Custody E σ} {t u : Timeline E σ}

/-- The custody stands where a run on a timeline stands between two things that are done to it. -/
structure Accords (c : Custody E σ) (t : Timeline E σ) : Prop where
  run : c.run = t.run
  idle : c.busy = false
  left : c.left = !t.run.loop.isOpen
  /-- On a timeline a loop that is told to leave does so at once. -/
  gone : t.run.released = true → t.run.loop.isOpen = false

/-- The custody comes to stand where the run on the timeline stands, and nobody notices anything. -/
def Reaches (release : RunRelease E σ) (c : Custody E σ) (t : Timeline E σ) : Prop :=
  ∃ deeds, Accords (c.playAll release deeds) t
    ∧ (c.playAll release deeds).waiters = c.waiters
    ∧ (c.playAll release deeds).stoppers = c.stoppers

theorem Accords.reaches (h : Accords c t) (hrun : u.run = t.run) : Reaches release c u := by
  refine ⟨[], ⟨h.run.trans hrun.symm, h.idle, ?_, ?_⟩, rfl, rfl⟩
  . rw [hrun]
    exact h.left
  . rw [hrun]
    exact h.gone

theorem Reaches.trans (h : Reaches release c t) (h' : ∀ d : Custody E σ, Accords d t → Reaches release d u) :
    Reaches release c u := by
  rcases h with ⟨deeds, haccords, hwaiters, hstoppers⟩
  rcases h' _ haccords with ⟨more, hmore, hw, hs⟩
  refine ⟨deeds ++ more, ?_⟩
  rw [playAll_append]
  exact ⟨hmore, hw.trans hwaiters, hs.trans hstoppers⟩

theorem go_of_not_isOpen (h : c.run.loop.isOpen = false) (provide : Provide E) :
    c.go provide = { c with left := true } := by
  unfold Loop.isOpen at h
  unfold go
  split <;> simp_all

/-- After a loop has ended it is still to leave. -/
theorem Accords.reaches_setLoop (h : Accords c t) (loop : Loop E) (hopen : t.run.loop.isOpen = true)
    (hloop : ∃ deeds, c.playAll release deeds = c.setLoop loop) (hu : u.run = { t.run with loop }) :
    Reaches release c u := by
  rcases hloop with ⟨deeds, hdeeds⟩
  have hleft : c.left = false := by simp [h.left, hopen]
  have hreleased : t.run.released = false := by
    cases hr : t.run.released with
    | false => rfl
    | true =>
      rw [h.gone hr] at hopen
      cases hopen
  have hrun : (c.setLoop loop).run = u.run := by
    rw [hu, ← h.run]
    rfl
  cases hclosed : loop.isOpen with
  | true =>
    refine ⟨deeds, ?_⟩
    rw [hdeeds]
    refine ⟨⟨hrun, h.idle, ?_, ?_⟩, rfl, rfl⟩
    . simp [setLoop, hleft, hu, hclosed]
    . simp [hu, hreleased]
  | false =>
    refine ⟨deeds ++ [.go fun _ _ _ => .ok .null], ?_⟩
    have hgo : (c.setLoop loop).play release (.go fun _ _ _ => .ok .null)
        = { c.setLoop loop with left := true } :=
      go_of_not_isOpen (c := c.setLoop loop) hclosed _
    have hall : c.playAll release (deeds ++ [.go fun _ _ _ => .ok .null])
        = { c.setLoop loop with left := true } := by
      rw [playAll_append, hdeeds, ← hgo]
      rfl
    rw [hall]
    refine ⟨⟨hrun, h.idle, ?_, ?_⟩, rfl, rfl⟩
    . simp [hu, hclosed]
    . simp [hu, hclosed]

theorem submit_playAll (hleft : c.left = false) (events : List Event) :
    c.playAll release (events.map .submit) = c.setLoop (c.run.loop.send .external events) := by
  induction events generalizing c with
  | nil => simp [playAll, setLoop, Loop.send]
  | cons event rest ih =>
    have hsubmit : c.play release (.submit event) = c.setLoop (c.run.loop.send .external [event]) := by
      simp [play, submit, hleft]
    show (c.play release (.submit event)).playAll release (rest.map .submit) = _
    rw [hsubmit, ih (c := c.setLoop (c.run.loop.send .external [event])) hleft]
    simp [setLoop, Loop.send]

theorem emitAll_playAll (release : RunRelease E σ) (c : Custody E σ) :
    ∃ deeds, c.playAll release deeds = c.setLoop c.run.loop.emitAll := by
  cases hphase : c.run.loop.phase with
  | emitting p events =>
    induction events generalizing c with
    | nil =>
      refine ⟨[.go fun _ _ _ => .ok .null], ?_⟩
      simp [playAll, play, go, setLoop, Loop.emitAll, Loop.emit, hphase, Loop.send]
    | cons event rest ih =>
      rcases ih (c.setLoop c.run.loop.emit) (by simp [setLoop, Loop.emit, hphase]) with ⟨deeds, hdeeds⟩
      refine ⟨(.go fun _ _ _ => .ok .null) :: deeds, ?_⟩
      have hgo : c.play release (.go fun _ _ _ => .ok .null) = c.setLoop c.run.loop.emit := by
        simp [play, go, hphase]
      show (c.play release _).playAll release deeds = _
      rw [hgo, hdeeds]
      simp [setLoop, Loop.emitAll, Loop.emit, hphase, Loop.send]
  | _ =>
    refine ⟨[], ?_⟩
    simp [playAll, setLoop, Loop.emitAll, hphase]

theorem Accords.reaches_take (h : Accords c t) (hphase : t.run.loop.phase = .waiting)
    (hqueue : t.run.loop.queue.isEmpty = false) (provide : Provide E) :
    Reaches release c (t.setLoop (t.run.loop.take provide)) := by
  have hopen : t.run.loop.isOpen = true := by simp [Loop.isOpen, hphase]
  have hreleased : t.run.released = false := by
    cases hr : t.run.released with
    | false => rfl
    | true =>
      rw [h.gone hr] at hopen
      cases hopen
  apply h.reaches_setLoop (t.run.loop.take provide) hopen _ rfl
  refine ⟨[.go provide, .go provide], ?_⟩
  have hpick : c.play release (.go provide) = { c with busy := true } := by
    simp [play, go, h.run, hphase, h.idle, hreleased, hqueue]
  have htake : ({ c with busy := true } : Custody E σ).play release (.go provide)
      = { c.setLoop (c.run.loop.take provide) with busy := false } := by
    simp [play, go, h.run, hphase, setLoop]
  show (c.play release (.go provide)).play release (.go provide) = _
  rw [hpick, htake, ← h.run]
  simp [setLoop, h.idle]

theorem Accords.reaches_begin (h : Accords c t) {i : Invocation E} (hphase : t.run.loop.phase = .invoking i)
    (s : Surroundings E σ) : Reaches release c (t.begin s i) := by
  have hopen : t.run.loop.isOpen = true := by simp [Loop.isOpen, hphase]
  apply h.reaches_setLoop (t.begin s i).run.loop hopen _ rfl
  refine ⟨(s.act t.run.loop i t.world).1.submissions.map .submit, ?_⟩
  rw [submit_playAll (by simp [h.left, hopen]), h.run]
  rfl

theorem Accords.reaches_settle (h : Accords c t) (hopen : t.run.loop.isOpen = true) (moment : Duration)
    (ending : Ending E) : Reaches release c (t.settle moment ending) := by
  apply h.reaches_setLoop (t.settle moment ending).run.loop hopen _ rfl
  cases ending with
  | crashed =>
    refine ⟨[.crash], ?_⟩
    show c.setLoop c.run.loop.crash = _
    rw [h.run]
    rfl
  | returned outcome =>
    rcases (c.setLoop (c.run.loop.settle outcome)).emitAll_playAll release with ⟨deeds, hdeeds⟩
    refine ⟨.settle outcome :: deeds, ?_⟩
    refine Eq.trans hdeeds ?_
    rw [h.run]
    rfl

theorem Accords.reaches_advance (h : Accords c t) (s : Surroundings E σ) (deadline : Duration) (steps : Nat) :
    Reaches release c (t.advance s deadline steps) := by
  induction steps generalizing c t with
  | zero => exact h.reaches rfl
  | succ steps ih =>
    unfold Timeline.advance
    split
    . next hphase =>
      split
      . exact h.reaches rfl
      . next hqueue =>
        apply (h.reaches_take hphase (by simpa using hqueue) _).trans
        intro d hd
        exact ih hd
    . next i hphase =>
      have hopen : t.run.loop.isOpen = true := by simp [Loop.isOpen, hphase]
      split
      . apply (h.reaches_begin hphase s).trans
        intro d hd
        exact ih hd
      . next moment ending hdue =>
        split
        . apply (h.reaches_settle hopen t.now ending).trans
          intro d hd
          exact ih hd
        . split
          . apply (h.reaches_settle hopen moment ending).trans
            intro d hd
            exact ih hd
          . exact h.reaches rfl
    . exact h.reaches rfl

theorem Accords.outcome? (h : Accords c t) : c.outcome? = t.run.outcome? := by
  unfold Custody.outcome?
  rw [h.run, h.left]
  unfold Run.outcome? Loop.isOpen
  split
  . next hstopped => split <;> simp_all
  . rfl

/-- Waiting on a timeline is one way in which waiting can go. -/
theorem Accords.wait (h : Accords c t) (s : Surroundings E σ) (limit : Duration) :
    ∃ deeds, Accords (c.playAll release deeds) (t.wait s limit).2
      ∧ (c.playAll release deeds).waiters
        = c.waiters ++ [.answered (t.wait s limit).1 (t.wait s limit).2.run.loop.trail]
      ∧ (c.playAll release deeds).stoppers = c.stoppers := by
  have hwait : Accords (c.play release .wait) t := ⟨h.run, h.idle, h.left, h.gone⟩
  have hreaches : Reaches release (c.play release .wait) (t.wait s limit).2
      ∧ (t.wait s limit).1 = (t.wait s limit).2.run.outcome?.getD .timedOut := by
    unfold Timeline.wait
    split
    . next outcome houtcome => exact ⟨hwait.reaches rfl, by simp [houtcome]⟩
    . next houtcome =>
      split
      . exact ⟨hwait.reaches rfl, by simp [houtcome]⟩
      . exact ⟨hwait.reaches_advance s _ _, rfl⟩
  rcases hreaches with ⟨⟨deeds, haccords, hwaiters, hstoppers⟩, houtcome⟩
  refine ⟨.wait :: deeds ++ [.look c.waiters.length true, .read c.waiters.length], ?_⟩
  have hall : c.playAll release (.wait :: deeds ++ [.look c.waiters.length true, .read c.waiters.length])
      = (((c.play release .wait).playAll release deeds).look c.waiters.length true).read c.waiters.length := by
    rw [playAll_append]
    rfl
  rw [hall, houtcome]
  generalize (c.play release .wait).playAll release deeds = d at haccords hwaiters hstoppers
  have hnew : d.waiters = c.waiters ++ [.watching] := hwaiters
  have hlook : d.look c.waiters.length true = { d with
      waiters := c.waiters ++ [.reading ((t.wait s limit).2.run.outcome?.getD .timedOut)] } := by
    unfold look
    rw [hnew, List.getElem?_concat_length, haccords.outcome?]
    cases (t.wait s limit).2.run.outcome? with
    | _ => simp [List.set_append_right]
  rw [hlook]
  unfold read
  simp only [List.getElem?_concat_length]
  refine ⟨⟨haccords.run, haccords.idle, haccords.left, haccords.gone⟩, ?_, hstoppers⟩
  simp [List.set_append_right, haccords.run]

theorem Accords.submit (h : Accords c t) (event : Event) :
    (∀ u, t.submit event = .ok u → ∃ d, c.submit event = .ok d ∧ Accords d u)
    ∧ ∀ error, t.submit event = .error error → c.submit event = .error error := by
  unfold Custody.submit Timeline.submit Run.submit Loop.submit
  cases hopen : t.run.loop.isOpen with
  | true =>
    have hleft : c.left = false := by simp [h.left, hopen]
    constructor
    . intro u hu
      cases hu
      refine ⟨c.setLoop (c.run.loop.send .external [event]), by simp [hleft], ?_, h.idle, h.left, h.gone⟩
      simp [setLoop, h.run]
    . intro error herror
      cases herror
  | false =>
    have hleft : c.left = true := by simp [h.left, hopen]
    constructor
    . intro u hu
      cases hu
    . intro error herror
      cases herror
      simp [hleft]

theorem go_of_released (hreleased : c.run.released = true) (hidle : c.busy = false)
    (hphase : c.run.loop.phase = .waiting ∨ ∃ i, c.run.loop.phase = .invoking i) (provide : Provide E) :
    c.go provide = c.setLoop c.run.loop.cancel := by
  unfold go
  rcases hphase with hphase | ⟨i, hphase⟩
  . simp [hphase, hidle, hreleased]
  . simp [hphase, hreleased]

/-- A loop that has been told to leave queues what is left of its events and then leaves. -/
theorem exists_leaves (release : RunRelease E σ) (hreleased : c.run.released = true) (hidle : c.busy = false)
    (hleft : c.left = !c.run.loop.isOpen) :
    ∃ deeds, c.playAll release deeds = { c.setLoop c.run.loop.emitAll.cancel with left := true } := by
  cases hopen : c.run.loop.isOpen with
  | false =>
    refine ⟨[], ?_⟩
    have hleft : c.left = true := by simp [hleft, hopen]
    have hloop : c.run.loop.emitAll.cancel = c.run.loop := by
      unfold Loop.isOpen at hopen
      unfold Loop.emitAll Loop.cancel
      split at hopen <;> simp_all
    rw [hloop]
    simp [playAll, setLoop, ← hleft]
  | true =>
    rcases c.emitAll_playAll release with ⟨deeds, hdeeds⟩
    refine ⟨deeds ++ [.go fun _ _ _ => .ok .null, .go fun _ _ _ => .ok .null], ?_⟩
    rw [playAll_append, hdeeds]
    show ((c.setLoop c.run.loop.emitAll).go _).go _ = _
    rw [go_of_released (c := c.setLoop c.run.loop.emitAll) hreleased hidle (Loop.phase_emitAll hopen)]
    apply go_of_not_isOpen
    exact c.run.loop.isOpen_cancel_emitAll

/-- So is stopping, with the same answer. -/
theorem Accords.stop (h : Accords c t) (s : Surroundings E σ) :
    ∃ deeds, Accords (c.playAll s.release deeds) (t.stop s).2
      ∧ (c.playAll s.release deeds).waiters = c.waiters
      ∧ (c.playAll s.release deeds).stoppers = c.stoppers ++ [.returned ((t.stop s).1.map
          fun (context, report) => ⟨context, (t.stop s).2.run.loop.trail, report⟩)] := by
  cases hreleased : t.run.released with
  | true =>
    refine ⟨[.stop], ?_⟩
    have hstop : t.stop s = (.error .notRunning, t) := by simp [Timeline.stop, Run.stop, hreleased]
    have hplay : c.playAll s.release [.stop]
        = { c with stoppers := c.stoppers ++ [.returned (.error .notRunning)] } := by
      simp [playAll, play, Custody.stop, h.run, hreleased]
    rw [hstop, hplay]
    exact ⟨⟨h.run, h.idle, h.left, h.gone⟩, rfl, rfl⟩
  | false =>
    have hstop : c.play s.release .stop
        = { c with run := { c.run with released := true }, stoppers := c.stoppers ++ [.joining] } := by
      simp [play, Custody.stop, h.run, hreleased]
    generalize htold : c.play s.release .stop = told at hstop
    have hleft : told.left = !told.run.loop.isOpen := by
      rw [hstop]
      simp [h.left, h.run]
    rcases exists_leaves s.release (by rw [hstop]) (by rw [hstop]; exact h.idle) hleft with ⟨deeds, hdeeds⟩
    refine ⟨.stop :: deeds ++ [.join c.stoppers.length t.world], ?_⟩
    have hall : c.playAll s.release (.stop :: deeds ++ [.join c.stoppers.length t.world])
        = ({ told.setLoop told.run.loop.emitAll.cancel with left := true } : Custody E σ).join s.release
          c.stoppers.length t.world := by
      rw [playAll_append, ← hdeeds, ← htold]
      rfl
    have hclosed := t.run.loop.isOpen_cancel_emitAll
    rw [hall, hstop, h.run]
    unfold Timeline.stop Run.stop join shut
    simp only [setLoop, List.getElem?_concat_length, hreleased]
    cases hphase : t.run.loop.emitAll.cancel.phase with
    | _ =>
      simp only [Bool.false_eq_true, ↓reduceIte, List.set_append_right, Nat.le_refl, Nat.sub_self,
        List.set_cons_zero]
      exact ⟨⟨rfl, h.idle, by simp [hclosed], fun _ => hclosed⟩, trivial, rfl⟩

end Custody

end Turnstile
