import Turnstile.Proofs.Run.Lifecycle

/-!
This module contains the way that the context takes through a run. Whoever is given a context is given the one that
the latest action has returned, and an action that fails or is left behind has no part in it.
-/

namespace Turnstile

/-- What an action has returned, with the position of its invocation. -/
structure Return (E : Extension) where
  visit : Nat
  outcome : Except ActionError (Context E × Step)

namespace Return

variable {E : Extension} {returns : List (Return E)} {start context : Context E} {r : Return E} {n m : Nat}

def context? (r : Return E) : Option (Context E) :=
  match r.outcome with
  | .ok (context, _) => some context
  | .error _ => none

/-- The context of the latest one among the invocations before a position that have returned a context. -/
def contextBefore (returns : List (Return E)) (start : Context E) (n : Nat) : Context E :=
  ((returns.filter (·.visit < n)).filterMap context?).getLast?.getD start

theorem contextBefore_concat_of_le (h : n ≤ r.visit) :
    contextBefore (returns ++ [r]) start n = contextBefore returns start n := by
  have hnot : ¬ r.visit < n := by omega
  simp [contextBefore, List.filter_append, hnot]

theorem contextBefore_concat_of_none (h : r.context? = none) :
    contextBefore (returns ++ [r]) start n = contextBefore returns start n := by
  unfold contextBefore
  rw [List.filter_append, List.filterMap_append]
  have hnone : ([r].filter (·.visit < n)).filterMap context? = [] := by
    by_cases hlt : r.visit < n
    . simp [hlt, h]
    . simp [hlt]
  rw [hnone, List.append_nil]

theorem contextBefore_concat_of_some (h : r.context? = some context) (hlt : r.visit < n) :
    contextBefore (returns ++ [r]) start n = context := by
  simp [contextBefore, List.filter_append, hlt, h]

/-- Nothing is returned between two positions that are both behind all invocations. -/
theorem contextBefore_of_le (h : ∀ r ∈ returns, r.visit < n) (hle : n ≤ m) :
    contextBefore returns start m = contextBefore returns start n := by
  unfold contextBefore
  have hall : ∀ k, n ≤ k → returns.filter (·.visit < k) = returns := by
    intro k hk
    rw [List.filter_eq_self]
    intro r hr
    have := h r hr
    simp
    omega
  rw [hall m hle, hall n (Nat.le_refl n)]

end Return

namespace Loop

variable {E : Extension}

/-- A schema is only asked for with the context of the loop. -/
theorem judge_congr {provide other : Provide E} {l : Loop E} (work : Work)
    (h : ∀ provider t, other provider l.context t = provide provider l.context t) :
    l.judge other work = l.judge provide work := by
  have hschema : ∀ t, schemaFor other l.context t = schemaFor provide l.context t := by
    intro t
    unfold schemaFor
    split
    . split
      . rfl
      . rw [h]
    . rfl
    . rfl
  unfold judge
  simp only [hschema]

end Loop

namespace Chronicle

variable {E : Extension}

theorem visitOf_cases (c : Chronicle E) (x : Hearing E) (next : Loop E) :
    ((∀ i, next.phase ≠ .invoking i) ∧ c.visitOf x next = [])
    ∨ ∃ v : Visit E, v.loop = next ∧ c.visitOf x next = [v] := by
  unfold visitOf
  split
  . right
    exact ⟨_, rfl, rfl⟩
  . next hphase =>
    left
    exact ⟨hphase, rfl⟩

theorem settle_frame (c : Chronicle E) (outcome : Except ActionError (Context E × Step)) :
    (c.play (.settle outcome)).visits = c.visits ∧ (c.play (.settle outcome)).heard = c.heard := by
  unfold play
  dsimp only
  split
  . exact ⟨rfl, rfl⟩
  . exact ⟨rfl, rfl⟩

end Chronicle

/-- A chronicle, with what the actions of its invocations have returned. -/
structure Account (E : Extension) where
  chronicle : Chronicle E
  returns : List (Return E)

namespace Account

variable {E : Extension} {machine : Machine} {seed : Trail} {start : Context E} {a : Account E} {move : Move E}

def begin (l : Loop E) : Account E :=
  ⟨.begin l, []⟩

/-- The action that returns is the one that was invoked last. -/
def returned (a : Account E) (outcome : Except ActionError (Context E × Step)) : Return E :=
  ⟨a.chronicle.visits.length - 1, outcome⟩

def returnsOf (a : Account E) (move : Move E) : List (Return E) :=
  match a.chronicle.loop.phase, move with
  | .invoking _, .settle outcome => [a.returned outcome]
  | _, _ => []

def play (a : Account E) (move : Move E) : Account E :=
  ⟨a.chronicle.play move, a.returns ++ a.returnsOf move⟩

def playAll (a : Account E) (moves : List (Move E)) : Account E :=
  moves.foldl play a

def contextBefore (a : Account E) (start : Context E) (n : Nat) : Context E :=
  Return.contextBefore a.returns start n

theorem playAll_chronicle (a : Account E) (moves : List (Move E)) :
    (a.playAll moves).chronicle = a.chronicle.playAll moves := by
  induction moves generalizing a with
  | nil => rfl
  | cons move rest ih => exact ih (a.play move)

/-- The contexts that were given away are those that had been returned before. -/
structure Threaded (start : Context E) (a : Account E) : Prop where
  ordered : a.returns.Pairwise (·.visit < ·.visit)
  known : ∀ r ∈ a.returns, r.visit < a.chronicle.visits.length
  /-- The action under way has not returned yet. -/
  due : ∀ i, a.chronicle.loop.phase = .invoking i → ∀ r ∈ a.returns, r.visit + 1 < a.chronicle.visits.length
  visits : ∀ (n : Nat) (v : Visit E), a.chronicle.visits[n]? = some v → v.loop.context = a.contextBefore start n
  heard : ∀ (n : Nat) (x : Hearing E), a.chronicle.heard[n]? = some x → x.loop.context = a.contextBefore start n
  context : a.chronicle.loop.context = a.contextBefore start a.chronicle.visits.length

theorem Threaded.begin {config : RunConfig} {l : Loop E}
    (h : Loop.start machine start seed config = .ok l) : Threaded start (begin l) := by
  have hl := Loop.start_eq h
  subst hl
  refine ⟨List.Pairwise.nil, ?_, ?_, ?_, ?_, rfl⟩
  . intro r hr
    cases hr
  . intro i hi
    cases hi
  . intro n v hv
    cases hv
  . intro n x hx
    cases hx

theorem Threaded.hear {x : Hearing E} {next : Loop E} (threaded : Threaded start a)
    (hlength : a.chronicle.heard.length = a.chronicle.visits.length)
    (hx : x.loop.context = a.chronicle.loop.context) (hnext : next.context = a.chronicle.loop.context) :
    Threaded start ⟨a.chronicle.hear x next, a.returns⟩ := by
  have hheard : ∀ (n : Nat) y, (a.chronicle.heard ++ [x])[n]? = some y →
      y.loop.context = a.contextBefore start n := by
    intro n y hy
    rcases Chronicle.getElem?_concat_cases hy with hy | ⟨rfl, rfl⟩
    . exact threaded.heard n y hy
    . rw [hx, hlength]
      exact threaded.context
  rcases a.chronicle.visitOf_cases x next with ⟨hphase, hvisit⟩ | ⟨v, hv, hvisit⟩
  . unfold Chronicle.hear
    rw [hvisit, List.append_nil]
    refine ⟨threaded.ordered, threaded.known, ?_, threaded.visits, hheard, hnext.trans threaded.context⟩
    intro i hi
    exact absurd hi (hphase i)
  . unfold Chronicle.hear
    rw [hvisit]
    refine ⟨threaded.ordered, ?_, ?_, ?_, hheard, ?_⟩
    . intro r hr
      have := threaded.known r hr
      simp only [List.length_append, List.length_singleton]
      omega
    . intro i hi r hr
      have := threaded.known r hr
      simp only [List.length_append, List.length_singleton]
      omega
    . intro n w hw
      rcases Chronicle.getElem?_concat_cases hw with hw | ⟨rfl, rfl⟩
      . exact threaded.visits n w hw
      . rw [hv, hnext]
        exact threaded.context
    . -- The new visit has not returned anything yet.
      show next.context = _
      rw [hnext, threaded.context]
      apply Eq.symm
      apply Return.contextBefore_of_le threaded.known
      simp

theorem visit_returned (guarded : Chronicle.Guarded machine a.chronicle) {i : Invocation E}
    (hphase : a.chronicle.loop.phase = .invoking i) (outcome : Except ActionError (Context E × Step)) :
    (a.returned outcome).visit + 1 = a.chronicle.visits.length := by
  have busy := guarded.busy
  unfold Chronicle.Busy at busy
  rw [hphase] at busy
  rcases busy with ⟨v, hv, _⟩
  have hpos := List.length_pos_of_mem (List.mem_of_getLast? hv)
  unfold returned
  dsimp only
  omega

/-- What an action returns changes nothing for the invocations up to its own. -/
theorem contextBefore_returned (guarded : Chronicle.Guarded machine a.chronicle) {i : Invocation E}
    (hphase : a.chronicle.loop.phase = .invoking i) (outcome : Except ActionError (Context E × Step)) {n : Nat}
    (hn : n < a.chronicle.visits.length) :
    Return.contextBefore (a.returns ++ [a.returned outcome]) start n = a.contextBefore start n := by
  have hvisit := visit_returned guarded hphase outcome
  apply Return.contextBefore_concat_of_le
  omega

theorem context_settle (guarded : Chronicle.Guarded machine a.chronicle) (threaded : Threaded start a)
    {i : Invocation E} (hphase : a.chronicle.loop.phase = .invoking i)
    (outcome : Except ActionError (Context E × Step)) :
    (a.chronicle.loop.settle outcome).context
      =
    Return.contextBefore (a.returns ++ [a.returned outcome]) start a.chronicle.visits.length := by
  have hvisit := visit_returned guarded hphase outcome
  simp only [Loop.settle, hphase]
  cases outcome with
  | error error =>
    rw [Return.contextBefore_concat_of_none rfl]
    exact threaded.context
  | ok value =>
    apply Eq.symm
    apply Return.contextBefore_concat_of_some
    . rfl
    . omega

theorem Threaded.settle (guarded : Chronicle.Guarded machine a.chronicle) (threaded : Threaded start a)
    {i : Invocation E} (hphase : a.chronicle.loop.phase = .invoking i)
    (outcome : Except ActionError (Context E × Step)) : Threaded start (a.play (.settle outcome)) := by
  have hlength := guarded.answered.heard_length (by rw [hphase]; simp)
  have hvisit := visit_returned guarded hphase outcome
  rcases a.chronicle.settle_frame outcome with ⟨hvisits, hheard⟩
  have hloop : (a.chronicle.play (.settle outcome)).loop = a.chronicle.loop.settle outcome :=
    a.chronicle.play_loop _
  have hplay : a.play (.settle outcome)
      = ⟨a.chronicle.play (.settle outcome), a.returns ++ [a.returned outcome]⟩ := by
    simp [play, returnsOf, hphase]
  rw [hplay]
  generalize a.chronicle.play (.settle outcome) = next at hvisits hheard hloop
  refine ⟨?_, ?_, ?_, ?_, ?_, ?_⟩
  . apply List.pairwise_append.2
    refine ⟨threaded.ordered, List.pairwise_singleton _ _, ?_⟩
    intro r hr s hs
    have := threaded.due i hphase r hr
    rw [List.mem_singleton] at hs
    rw [hs]
    omega
  . intro r hr
    rw [List.mem_append, List.mem_singleton] at hr
    dsimp only
    rw [hvisits]
    rcases hr with hr | rfl
    . exact threaded.known r hr
    . omega
  . -- No action is under way any more.
    intro j hj
    dsimp only at hj
    rw [hloop] at hj
    cases outcome with
    | _ => simp [Loop.settle, hphase, Loop.finish] at hj
  . intro n v hv
    dsimp only at hv
    rw [hvisits] at hv
    have hn := (List.getElem?_eq_some_iff.1 hv).1
    exact (threaded.visits n v hv).trans (contextBefore_returned guarded hphase outcome hn).symm
  . intro n x hx
    dsimp only at hx
    rw [hheard] at hx
    have hn := (List.getElem?_eq_some_iff.1 hx).1
    rw [hlength] at hn
    exact (threaded.heard n x hx).trans (contextBefore_returned guarded hphase outcome hn).symm
  . show next.loop.context = Return.contextBefore _ start next.visits.length
    rw [hloop, hvisits]
    exact context_settle guarded threaded hphase outcome

theorem Threaded.play (guarded : Chronicle.Guarded machine a.chronicle) (threaded : Threaded start a)
    (move : Move E) : Threaded start (a.play move) := by
  by_cases hsettles : ∃ i outcome, a.chronicle.loop.phase = .invoking i ∧ move = .settle outcome
  . rcases hsettles with ⟨i, outcome, hphase, rfl⟩
    exact threaded.settle guarded hphase outcome
  . have hnone : a.returnsOf move = [] := by
      unfold returnsOf
      split
      . next i outcome hphase => exact absurd ⟨i, outcome, hphase, rfl⟩ hsettles
      . rfl
    have course := a.chronicle.play_course move
    unfold Account.play
    rw [hnone, List.append_nil]
    generalize a.chronicle.play move = d at course
    cases course with
    | arrive =>
      exact ⟨threaded.ordered, threaded.known, threaded.due, threaded.visits, threaded.heard, threaded.context⟩
    | hear provide hphase hqueue turn =>
      exact threaded.hear (guarded.answered.heard_length (by rw [hphase]; simp)) rfl rfl
    | settle context step hphase => exact absurd ⟨_, _, hphase, rfl⟩ hsettles
    | fail error hphase => exact absurd ⟨_, _, hphase, rfl⟩ hsettles
    | idle => exact threaded
    | _ =>
      refine ⟨threaded.ordered, threaded.known, ?_, threaded.visits, threaded.heard, threaded.context⟩
      intro i hi
      cases hi

theorem threaded_playAll {config : RunConfig} {l : Loop E}
    (h : Loop.start machine start seed config = .ok l) (moves : List (Move E)) :
    Chronicle.Guarded machine ((begin l).playAll moves).chronicle
    ∧ Threaded start ((begin l).playAll moves) := by
  have all : ∀ (a : Account E), Chronicle.Kept machine seed a.chronicle →
      Chronicle.Guarded machine a.chronicle → Threaded start a →
      Chronicle.Guarded machine (a.playAll moves).chronicle ∧ Threaded start (a.playAll moves) := by
    induction moves with
    | nil =>
      intro a kept guarded threaded
      exact ⟨guarded, threaded⟩
    | cons move rest ih =>
      intro a kept guarded threaded
      have course := a.chronicle.play_course move
      exact ih (a.play move) (kept.preserve course) (guarded.preserve kept course) (threaded.play guarded move)
  exact all _ (Chronicle.Kept.begin h) (Chronicle.Guarded.begin h) (.begin h)

end Account

/-- The context that comes with an outcome. -/
def Outcome.context? {E : Extension} : Outcome E → Option (Context E)
  | .completed context | .failed _ context => some context
  | .timedOut | .stopped => none

namespace Custody

variable {E : Extension} {σ : Type} {release : RunRelease E σ} {c d : Custody E σ} {deed : Deed E σ}
  {outcome : Outcome E} {context : Context E}

/-- What a sequence of deeds is to the loop. -/
def moves (release : RunRelease E σ) (c : Custody E σ) : List (Deed E σ) → List (Move E)
  | [] => []
  | deed :: rest => (c.move? deed).toList ++ (c.play release deed).moves release rest

theorem loop_playAll (release : RunRelease E σ) (c : Custody E σ) (deeds : List (Deed E σ)) :
    (c.playAll release deeds).run.loop = c.run.loop.playAll (c.moves release deeds) := by
  induction deeds generalizing c with
  | nil => rfl
  | cons deed rest ih =>
    have hfirst := ih (c.play release deed)
    rw [loop_play] at hfirst
    refine hfirst.trans ?_
    unfold Loop.playAll
    rw [← List.foldl_append]
    rfl

theorem context_of_outcome? (h : c.outcome? = some outcome) (hcontext : outcome.context? = some context) :
    context = c.run.loop.context := by
  unfold outcome? Run.outcome? at h
  cases hphase : c.run.loop.phase with
  | waiting | invoking | emitting => simp [hphase] at h
  | finished result =>
    cases result with
    | ok value | error error =>
      simp only [hphase, Option.some.injEq] at h
      subst h
      injection hcontext with hcontext
      exact hcontext.symm
  | cancelled | crashed =>
    simp only [hphase, Option.ite_none_right_eq_some, Option.some.injEq] at h
    rw [← h.2] at hcontext
    cases hcontext

/-- Only an action that returns a context replaces the one of the loop. -/
theorem context_play (release : RunRelease E σ) (c : Custody E σ)
    (h : ∀ context step, deed ≠ .settle (.ok (context, step))) :
    (c.play release deed).run.loop.context = c.run.loop.context := by
  rw [loop_play]
  cases hmove : c.move? deed with
  | none => rfl
  | some move =>
    rcases c.run.loop.exists_course move with ⟨x, course, hloop⟩
    show (c.run.loop.play move).context = _
    rw [← hloop]
    cases course with
    | settle context step =>
      cases deed with
      | settle outcome =>
        cases hmove
        exact absurd rfl (h context step)
      | go provide =>
        unfold move? at hmove
        grind
      | submit event =>
        unfold move? at hmove
        grind
      | _ => cases hmove
    | _ => rfl

/--
In every run, each action is given the context that was returned by the latest action that was invoked before and has
returned one, or the first context, and it is looked up there; and so is each provider of a schema. Invocations have
the positions of the events that have caused them. What happens otherwise leaves the context as it is, be it that an
action fails or is left behind, or that an event is rejected. This latest context is also the one that comes with the
outcome, and the one that is there after the run was stopped, but for the stop hooks.
-/
theorem contexts_latest {id : RunId} {machine : Machine} {start : Context E} {seed : Trail} {config : RunConfig}
    {r : Run E} (h : Run.start id machine start seed config = .ok r) (release : RunRelease E σ)
    (deeds : List (Deed E σ)) :
    let c : Custody E σ := (begin r).playAll release deeds
    let a := (Account.begin r.loop).playAll ((begin r).moves release deeds)
    let latest := a.contextBefore start
    a.chronicle.loop = c.run.loop
    ∧ a.returns.Pairwise (·.visit < ·.visit)
    ∧ (∀ r ∈ a.returns, r.visit < a.chronicle.visits.length)
    ∧ (∀ (n : Nat) v, a.chronicle.visits[n]? = some v → v.cause = n ∧ v.loop.context = latest n
      ∧ (latest n).action? v.invocation.name = some v.invocation.action)
    ∧ (∀ (n : Nat) x, a.chronicle.heard[n]? = some x → x.loop.context = latest n
      ∧ ∀ other : Provide E, (∀ provider t, other provider (latest n) t = x.provide provider (latest n) t) →
        x.loop.judge other x.work = x.verdict)
    ∧ c.run.loop.context = latest a.chronicle.visits.length
    ∧ (∀ deed, (∀ context step, deed ≠ .settle (.ok (context, step))) →
      (c.play release deed).run.loop.context = c.run.loop.context)
    ∧ (∀ (n : Nat) outcome trail context, c.waiters[n]? = some (.answered outcome trail) →
      outcome.context? = some context → context = latest a.chronicle.visits.length)
    ∧ (∀ (n : Nat) s, c.stoppers[n]? = some (.returned (.ok s)) →
      s.context = { latest a.chronicle.visits.length with stopHooks := [] }) := by
  intro c a latest
  have hstart := (Run.start_eq h).1
  rcases Account.threaded_playAll hstart ((begin r).moves release deeds) with ⟨guarded, threaded⟩
  have hloop : a.chronicle.loop = c.run.loop := by
    rw [Account.playAll_chronicle, Chronicle.playAll_loop]
    exact (loop_playAll release (begin r) deeds).symm
  have hlatest : c.run.loop.context = latest a.chronicle.visits.length := by
    rw [← hloop]
    exact threaded.context
  refine ⟨hloop, threaded.ordered, threaded.known, ?_, ?_, hlatest, fun deed => c.context_play release, ?_, ?_⟩
  . intro n v hv
    have hcontext : v.loop.context = latest n := threaded.visits n v hv
    refine ⟨guarded.cause n v hv, hcontext, ?_⟩
    have hinvokes := (guarded.entered v (List.mem_of_getElem? hv)).1
    rw [← hcontext]
    exact hinvokes.action
  . intro n x hx
    have hcontext : x.loop.context = latest n := threaded.heard n x hx
    refine ⟨hcontext, ?_⟩
    intro other hother
    apply Loop.judge_congr
    rw [hcontext]
    exact hother
  . intro n outcome trail context hw hcontext
    have attended : Attended (fun _ => True) c := by
      apply Attended.playAll
      intro n w hw
      cases hw
    have hfinal : outcome ≠ .timedOut := by
      rintro rfl
      cases hcontext
    rw [← hlatest]
    exact context_of_outcome? (attended.fits hw hfinal).1 hcontext
  . intro n s hs
    have stopping : Stopping release c := (Stopping.begin release h).1.playAll nofun deeds
    rw [← hlatest]
    exact (stopping.shut_of_ok hs).context

end Custody

/-!
The first attempt of an action returns a further context with an event that is rejected. The second attempt is given
this context, and is stopped while it is under way.
-/

namespace Sample

def further : Context extension :=
  context.addAction "more" (.custom ())

def furtheringDeeds : List (Deed extension Nat) :=
  [.submit entering, .go provide, .go provide, .settle (.ok (further, .emit leaving)), .go provide, .go provide,
    .go provide, .go provide, .stop, .go provide, .go provide, .join 0 0]

def furtheringRun : Run extension :=
  ⟨⟨⟨0⟩⟩, loop, .standard, .running, false⟩

def furthering : Custody extension Nat :=
  (Custody.begin furtheringRun).playAll release furtheringDeeds

def furtheringAccount : Account extension :=
  (Account.begin loop).playAll ((Custody.begin furtheringRun).moves release furtheringDeeds)

end Sample

namespace Custody

theorem contexts_latest_further :
    Run.start ⟨⟨0⟩⟩ Sample.machine Sample.context [] .standard = .ok Sample.furtheringRun
    ∧ (∃ v, Sample.furtheringAccount.chronicle.visits[1]? = some v ∧ v.loop.context = Sample.further)
    ∧ ∃ s, Sample.furthering.stoppers = [.returned (.ok s)] ∧ s.context = Sample.further := by
  have hstart : Run.start ⟨⟨0⟩⟩ Sample.machine Sample.context [] .standard = .ok Sample.furtheringRun := by rfl
  have hvisit : ∃ v, Sample.furtheringAccount.chronicle.visits[1]? = some v := ⟨_, rfl⟩
  have hstoppers : ∃ s, Sample.furthering.stoppers = [.returned (.ok s)] := ⟨_, rfl⟩
  rcases hvisit with ⟨v, hvisit⟩
  rcases hstoppers with ⟨s, hstoppers⟩
  rcases contexts_latest hstart Sample.release Sample.furtheringDeeds with ⟨_, _, _, hvisits, _, _, _, _, hstop⟩
  refine ⟨hstart, ⟨v, hvisit, (hvisits 1 v hvisit).2.1.trans ?_⟩, ⟨s, hstoppers, ?_⟩⟩
  . rfl
  . refine (hstop 0 s (congrArg (·[0]?) hstoppers)).trans ?_
    rfl

end Custody

end Turnstile
