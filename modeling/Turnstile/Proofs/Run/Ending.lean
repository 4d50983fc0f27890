import Turnstile.Proofs.Run.Attempt

/-!
This module contains the end of runs: which event ends a run with which result, that every other event is
answered with an invocation, and that nothing happens after the result is there.
-/

namespace Turnstile

/-- Is the error about a schema that is not available or not usable? -/
def RunError.isOfSchema : RunError → Bool
  | .unknownProvider _ _ | .provider _ _ | .schema _ _ => true
  | _ => false

namespace Loop

variable {E : Extension} {provide : Provide E} {l : Loop E} {work : Work} {context : Context E}
  {error : RunError}

theorem result?_eq_some_iff {result : Except RunError Unit} :
    l.result? = some result ↔ l.phase = .finished result := by
  unfold result?
  split
  . next other h => simp [h]
  . next h =>
    simp only [reduceCtorEq, false_iff]
    exact h result

theorem isOfSchema_of_schemaFor {t : Transition} (h : schemaFor provide context t = .error error) :
    error.isOfSchema = true := by
  unfold schemaFor at h
  split at h
  . split at h
    . cases h
      rfl
    . next provider _ =>
      cases hgiven : provide provider context t with
      | error e =>
        rw [hgiven] at h
        cases h
        rfl
      | ok schema =>
        rw [hgiven] at h
        cases h
  . cases h
  . cases h

theorem isOfSchema_of_judge {failure : Failure} (h : l.judge provide work = .unusable failure error) :
    error.isOfSchema = true := by
  unfold judge at h
  dsimp only at h
  split at h
  . cases h
  . split at h
    . next hschema =>
      cases h
      exact isOfSchema_of_schemaFor hschema
    . split at h
      . cases h
        rfl
      . split at h
        . cases h
        . cases h

theorem Barred.isOfSchema {machine : Machine} {id : StateId} (h : Barred machine context id error) :
    error.isOfSchema = false := by
  cases h with
  | _ => rfl

/-- An action that can be asked whether it retries can also be invoked. -/
theorem Barred.retries {id : StateId} (h : Barred l.machine l.context id error) : l.retries id = false := by
  unfold Loop.retries
  cases h with
  | unknownState h =>
    rw [h]
    rfl
  | noAction h ha =>
    rw [h, Option.bind_some, ha]
  | unknownAction h ha hc =>
    rw [h, Option.bind_some, ha]
    dsimp only
    rw [hc]
    rfl

end Loop

namespace Hearing

variable {E : Extension} {x : Hearing E} {result : Except RunError Unit}

/-- How an event ends the run when it is not answered with an invocation. -/
inductive Ends (x : Hearing E) : Except RunError Unit → Prop where
  | complete (hv : x.verdict = .accepted) (hend : x.work.event.edge.isTerminal = true) : Ends x (.ok ())
  | barred {error : RunError} (hv : x.verdict = .accepted)
    (hend : x.work.event.edge.isTerminal = false)
    (hb : Loop.Barred x.loop.machine x.loop.context x.work.event.edge.target error) :
    Ends x (.error error)
  | unusable {failure : Failure} {error : RunError} (hv : x.verdict = .unusable failure error) :
    Ends x (.error error)
  | giveUp {failure : Failure} (hv : x.verdict = .rejected failure) :
    Ends x (.error (.rejected x.work.event.edge failure))

/-- The event can be answered with an invocation. -/
inductive GoesOn (x : Hearing E) : Prop where
  | enter (hv : x.verdict = .accepted) (hend : x.work.event.edge.isTerminal = false)
  | retry {failure : Failure} (hv : x.verdict = .rejected failure)

theorem goesOn_or_ends {provide : Provide E} {l : Loop E} {work : Work} {phase : Phase E}
    (turn : Loop.Turn provide l work phase) :
    (GoesOn ⟨work, l, provide⟩ ∧ ∃ i, phase = .invoking i)
    ∨ ∃ result, Ends ⟨work, l, provide⟩ result ∧ phase = .finished result := by
  cases turn with
  | complete hv hend => exact .inr ⟨_, .complete hv hend, rfl⟩
  | enter hv hend => exact .inl ⟨.enter hv hend, _, rfl⟩
  | barred hv hend hb => exact .inr ⟨_, .barred hv hend hb, rfl⟩
  | unusable hv => exact .inr ⟨_, .unusable hv, rfl⟩
  | retry hv => exact .inl ⟨.retry hv, _, rfl⟩
  | barredRetry hv ho hp hb =>
    have hretries := hp.2
    rw [hb.retries] at hretries
    cases hretries
  | giveUp hv => exact .inr ⟨_, .giveUp hv, rfl⟩

theorem record_of_unusable {failure : Failure} {error : RunError} (h : x.verdict = .unusable failure error) :
    x.record
      =
    ⟨x.loop.machine.id, x.loop.machine.version, x.work.event.edge.source, none, x.work.event,
      some failure⟩ := by
  unfold record
  rw [h]
  rfl

theorem target_eq_final_iff {edge : Edge} :
    some edge.target = some StateId.final ↔ edge.isTerminal = true := by
  simp [Edge.isTerminal, StateId.isFinal]

theorem GoesOn.target_ne (h : x.GoesOn) : x.record.target ≠ some .final := by
  cases h with
  | enter hv hend =>
    rw [Chronicle.record_of_accepted hv]
    dsimp only
    rw [Ne, target_eq_final_iff, hend]
    simp
  | retry hv =>
    rw [record_of_rejected hv]
    simp

theorem GoesOn.kind_ne {failure : Failure} (h : x.GoesOn) (hf : x.record.failure = some failure) :
    failure.kind ≠ .schema := by
  cases h with
  | enter hv hend =>
    rw [Chronicle.record_of_accepted hv] at hf
    cases hf
  | retry hv =>
    rw [record_of_rejected hv] at hf
    injection hf with hf
    subst hf
    rcases (Loop.judge_rejected hv).2 with hkind | hkind
    . simp [hkind]
    . simp [hkind]

theorem Ends.eq_ok_iff (h : x.Ends result) :
    result = .ok () ↔ x.record.failure = none ∧ x.record.target = some .final := by
  cases h with
  | complete hv hend =>
    rw [Chronicle.record_of_accepted hv]
    simp [target_eq_final_iff.2 hend]
  | barred hv hend hb =>
    rw [Chronicle.record_of_accepted hv]
    dsimp only
    rw [target_eq_final_iff, hend]
    simp
  | unusable hv =>
    rw [record_of_unusable hv]
    simp
  | giveUp hv =>
    rw [record_of_rejected hv]
    simp

theorem Ends.eq_rejected_iff (h : x.Ends result) {edge : Edge} {failure : Failure} :
    result = .error (.rejected edge failure) ↔
      x.record.event.edge = edge ∧ x.record.failure = some failure
        ∧ (failure.kind = .validation ∨ failure.kind = .unknownTransition) := by
  cases h with
  | complete hv hend =>
    rw [Chronicle.record_of_accepted hv]
    simp
  | barred hv hend hb =>
    rw [Chronicle.record_of_accepted hv]
    cases hb with
    | _ => simp
  | @unusable other error hv =>
    -- The error is about a schema, and so is the failure.
    rw [record_of_unusable hv]
    have hkind := (Loop.judge_unusable hv).2
    have herror := Loop.isOfSchema_of_judge hv
    constructor
    . intro heq
      injection heq with heq
      rw [heq] at herror
      cases herror
    . intro ⟨_, hfailure, hends⟩
      injection hfailure with hfailure
      rw [← hfailure, hkind] at hends
      simp at hends
  | @giveUp other hv =>
    rw [record_of_rejected hv]
    have hkind := (Loop.judge_rejected hv).2
    constructor
    . intro heq
      injection heq with heq
      injection heq with hedge hfailure
      rw [← hfailure]
      exact ⟨hedge, rfl, hkind⟩
    . intro ⟨hedge, hfailure, _⟩
      injection hfailure with hfailure
      rw [← hfailure, ← hedge]

theorem Ends.isOfSchema_iff (h : x.Ends result) :
    (∃ error, result = .error error ∧ error.isOfSchema = true) ↔
      ∃ failure, x.record.failure = some failure ∧ failure.kind = .schema := by
  cases h with
  | complete hv hend =>
    rw [Chronicle.record_of_accepted hv]
    simp
  | barred hv hend hb =>
    rw [Chronicle.record_of_accepted hv]
    simp [hb.isOfSchema]
  | unusable hv =>
    rw [record_of_unusable hv]
    simp [(Loop.judge_unusable hv).2, Loop.isOfSchema_of_judge hv]
  | giveUp hv =>
    rw [record_of_rejected hv]
    rcases (Loop.judge_rejected hv).2 with hkind | hkind
    . simp [hkind, RunError.isOfSchema]
    . simp [hkind, RunError.isOfSchema]

end Hearing

namespace Chronicle

variable {E : Extension} {machine : Machine} {seed : Trail} {c d : Chronicle E} {move : Move E}
  {x : Hearing E} {result : Except RunError Unit}

/-- The result, once there is one, comes from the event without an answer, or from an action that fails. -/
structure Concluded (c : Chronicle E) : Prop where
  goesOn : ∀ (n : Nat) (x : Hearing E), c.heard[n]? = some x → n < c.visits.length → x.GoesOn
  ends : ∀ result, c.loop.phase = .finished result →
    (c.heard.length = c.visits.length ∧ ∃ error, result = .error (.action error))
    ∨ ∃ x, c.heard[c.visits.length]? = some x ∧ x.Ends result

theorem Concluded.begin {context : Context E} {config : RunConfig} {l : Loop E}
    (h : Loop.start machine context seed config = .ok l) : Concluded (begin l) := by
  have hl := Loop.start_eq h
  subst hl
  constructor
  . intro n x hx
    cases hx
  . intro result hphase
    cases hphase

theorem Concluded.hear {work : Work} {phase : Phase E} {provide : Provide E}
    (concluded : Concluded c) (hlength : c.heard.length = c.visits.length)
    (turn : Loop.Turn provide c.loop.dequeued work phase) :
    Concluded (c.hear ⟨work, c.loop.dequeued, provide⟩
      { c.loop.dequeued.noted provide work with phase := phase }) := by
  -- The event is now the last one that was heard, and it has a visit exactly if it does not end the run.
  rcases Hearing.goesOn_or_ends turn with ⟨hgoes, i, rfl⟩ | ⟨result, hends, rfl⟩
  . constructor
    . intro n x hx hn
      dsimp only [Chronicle.hear, visitOf] at hx hn
      rw [List.length_append, List.length_singleton] at hn
      by_cases hlast : n < c.visits.length
      . rw [List.getElem?_append_left (by omega)] at hx
        exact concluded.goesOn n x hx hlast
      . have : n = c.heard.length := by omega
        subst this
        rw [List.getElem?_concat_length] at hx
        injection hx with hx
        subst hx
        exact hgoes
    . intro result hphase
      cases hphase
  . constructor
    . intro n x hx hn
      dsimp only [Chronicle.hear, visitOf] at hx hn
      rw [List.append_nil] at hn
      rw [List.getElem?_append_left (by omega)] at hx
      exact concluded.goesOn n x hx hn
    . intro other hphase
      injection hphase with hphase
      subst hphase
      right
      refine ⟨_, ?_, hends⟩
      dsimp only [Chronicle.hear, visitOf]
      rw [List.append_nil, ← hlength, List.getElem?_concat_length]

theorem Concluded.preserve (guarded : Guarded machine c) (concluded : Concluded c)
    (course : Course c move d) : Concluded d := by
  cases course with
  | arrive | idle => exact ⟨concluded.goesOn, concluded.ends⟩
  | hear provide hphase hqueue turn =>
    have hlength := guarded.answered.heard_length (by rw [hphase]; simp)
    exact concluded.hear hlength turn
  | @fail i error hphase =>
    refine ⟨concluded.goesOn, ?_⟩
    intro result hresult
    injection hresult with hresult
    left
    exact ⟨guarded.answered.heard_length (by rw [hphase]; simp), error, hresult.symm⟩
  | settle | emit | emitted | cancel | crash =>
    refine ⟨concluded.goesOn, ?_⟩
    intro result hresult
    cases hresult

theorem concluded_playAll {context : Context E} {config : RunConfig} {l : Loop E}
    (h : Loop.start machine context seed config = .ok l) (moves : List (Move E)) :
    Concluded ((begin l).playAll moves) := by
  have all : Kept machine seed ((begin l).playAll moves)
      ∧ Guarded machine ((begin l).playAll moves)
      ∧ Concluded ((begin l).playAll moves) := by
    apply playAll_induction (P := fun c => Kept machine seed c ∧ Guarded machine c ∧ Concluded c)
    . exact ⟨Kept.begin h, Guarded.begin h, Concluded.begin h⟩
    . intro c move ⟨kept, guarded, concluded⟩
      have course := play_course c move
      exact ⟨kept.preserve course, guarded.preserve kept course, concluded.preserve guarded course⟩
  exact all.2.2

/-- The event was heard last, and no action was invoked because of it. -/
structure Unanswered (c : Chronicle E) (x : Hearing E) : Prop where
  last : c.heard.getLast? = some x
  alone : ∀ v ∈ c.visits, v.cause + 1 ≠ c.heard.length

theorem Guarded.unanswered_iff (guarded : Guarded machine c) :
    Unanswered c x ↔ c.heard[c.visits.length]? = some x := by
  have hle : c.heard.length ≤ c.visits.length + 1 := by
    rcases guarded.answered with h | ⟨h, _⟩
    . omega
    . omega
  constructor
  . intro ⟨hlast, halone⟩
    rw [List.getLast?_eq_getElem?] at hlast
    have hpos := (List.getElem?_eq_some_iff.1 hlast).1
    -- If the event had its visit, this would be the one at the position of the event.
    have hlength : c.heard.length - 1 = c.visits.length := by
      rcases Nat.lt_or_ge (c.heard.length - 1) c.visits.length with hn | hn
      . have hv : c.visits[c.heard.length - 1]? = some c.visits[c.heard.length - 1] :=
          List.getElem?_eq_getElem hn
        have hcause := guarded.cause _ _ hv
        have := halone _ (List.mem_of_getElem? hv)
        omega
      . omega
    rw [← hlength]
    exact hlast
  . intro hx
    have hn := (List.getElem?_eq_some_iff.1 hx).1
    have hlength : c.heard.length - 1 = c.visits.length := by omega
    constructor
    . rw [List.getLast?_eq_getElem?, hlength]
      exact hx
    . intro v hv hcause
      rcases List.getElem_of_mem hv with ⟨m, hm, rfl⟩
      have := guarded.cause m _ (List.getElem?_eq_getElem hm)
      omega

theorem Concluded.result_cases (guarded : Guarded machine c) (concluded : Concluded c)
    (h : c.loop.result? = some result) :
    (∃ error, result = .error (.action error)) ∨ ∃ x, Unanswered c x ∧ x.Ends result := by
  rw [Loop.result?_eq_some_iff] at h
  rcases concluded.ends result h with ⟨_, herror⟩ | ⟨x, hx, hends⟩
  . exact .inl herror
  . exact .inr ⟨x, guarded.unanswered_iff.2 hx, hends⟩

theorem Concluded.exists_result (guarded : Guarded machine c) (concluded : Concluded c)
    (h : Unanswered c x) : ∃ result, c.loop.result? = some result ∧ x.Ends result := by
  rw [guarded.unanswered_iff] at h
  have hn := (List.getElem?_eq_some_iff.1 h).1
  rcases guarded.answered with hlength | ⟨_, result, hresult⟩
  . omega
  . refine ⟨result, Loop.result?_eq_some_iff.2 hresult, ?_⟩
    rcases concluded.ends result hresult with ⟨hlength, _⟩ | ⟨y, hy, hends⟩
    . omega
    . rw [h] at hy
      injection hy with hy
      subst hy
      exact hends

theorem Concluded.goesOn_or_unanswered (guarded : Guarded machine c) (concluded : Concluded c)
    (h : c.heard.getLast? = some x) : x.GoesOn ∨ Unanswered c x := by
  rw [guarded.unanswered_iff]
  rw [List.getLast?_eq_getElem?] at h
  have hn := (List.getElem?_eq_some_iff.1 h).1
  rcases guarded.answered with hlength | ⟨hlength, _⟩
  . left
    exact concluded.goesOn _ x h (by omega)
  . right
    rw [← h]
    congr 1
    omega

theorem Guarded.goesOn_of_earlier (guarded : Guarded machine c) (concluded : Concluded c)
    (h : x ∈ c.heard.dropLast) : x.GoesOn := by
  rcases List.getElem_of_mem h with ⟨n, hn, rfl⟩
  rw [List.length_dropLast] at hn
  rw [List.getElem_dropLast]
  apply concluded.goesOn n _ (List.getElem?_eq_getElem (by omega))
  rcases guarded.answered with hlength | ⟨hlength, _⟩
  . omega
  . omega

theorem exists_last_iff {xs : List (Hearing E)} {P : TrailRecord → Prop} :
    (∃ r, (xs.map Hearing.record).getLast? = some r ∧ P r) ↔
      ∃ x, xs.getLast? = some x ∧ P x.record := by
  rw [List.getLast?_map]
  cases xs.getLast? with
  | none => simp
  | some x => simp

theorem completed_iff (guarded : Guarded machine c) (concluded : Concluded c) :
    c.loop.result? = some (.ok ()) ↔
      ∃ x, c.heard.getLast? = some x ∧ x.record.failure = none ∧ x.record.target = some .final := by
  constructor
  . intro h
    rcases concluded.result_cases guarded h with ⟨_, herror⟩ | ⟨x, hx, hends⟩
    . cases herror
    . exact ⟨x, hx.last, hends.eq_ok_iff.1 rfl⟩
  . intro ⟨x, hx, hrecord⟩
    rcases concluded.goesOn_or_unanswered guarded hx with hgoes | hun
    . exact absurd hrecord.2 hgoes.target_ne
    . rcases concluded.exists_result guarded hun with ⟨result, hresult, hends⟩
      rw [hresult, hends.eq_ok_iff.2 hrecord]

theorem rejected_iff (guarded : Guarded machine c) (concluded : Concluded c) (edge : Edge)
    (failure : Failure) :
    c.loop.result? = some (.error (.rejected edge failure)) ↔
      ∃ x, Unanswered c x ∧ x.record.event.edge = edge ∧ x.record.failure = some failure
        ∧ (failure.kind = .validation ∨ failure.kind = .unknownTransition) := by
  constructor
  . intro h
    rcases concluded.result_cases guarded h with ⟨_, herror⟩ | ⟨x, hx, hends⟩
    . cases herror
    . exact ⟨x, hx, hends.eq_rejected_iff.1 rfl⟩
  . intro ⟨x, hx, hrecord⟩
    rcases concluded.exists_result guarded hx with ⟨result, hresult, hends⟩
    rw [hresult, hends.eq_rejected_iff.2 hrecord]

theorem unusable_iff (guarded : Guarded machine c) (concluded : Concluded c) :
    (∃ error, c.loop.result? = some (.error error) ∧ error.isOfSchema = true) ↔
      ∃ x, c.heard.getLast? = some x
        ∧ ∃ failure, x.record.failure = some failure ∧ failure.kind = .schema := by
  constructor
  . intro ⟨error, h, herror⟩
    rcases concluded.result_cases guarded h with ⟨_, haction⟩ | ⟨x, hx, hends⟩
    . cases haction
      cases herror
    . rcases hends.isOfSchema_iff.1 ⟨error, rfl, herror⟩ with ⟨failure, hfailure⟩
      exact ⟨x, hx.last, failure, hfailure⟩
  . intro ⟨x, hx, failure, hfailure, hkind⟩
    rcases concluded.goesOn_or_unanswered guarded hx with hgoes | hun
    . exact absurd hkind (hgoes.kind_ne hfailure)
    . rcases concluded.exists_result guarded hun with ⟨result, hresult, hends⟩
      rcases hends.isOfSchema_iff.2 ⟨failure, hfailure, hkind⟩ with ⟨error, rfl, herror⟩
      exact ⟨error, hresult, herror⟩

/-- From the second chronicle on the first one has only been sent more. -/
structure Rests (c d : Chronicle E) : Prop where
  result : d.loop.result? = c.loop.result?
  trail : d.loop.trail = c.loop.trail
  queue : c.loop.queue <+: d.loop.queue
  visits : d.visits = c.visits

theorem Rests.play (h : c.loop.result? = some result) (hd : Rests c d) (move : Move E) :
    Rests c (d.play move) := by
  have hphase : d.loop.phase = .finished result := by
    rw [← Loop.result?_eq_some_iff, hd.result, h]
  generalize hnext : d.play move = next
  have course := play_course d move
  rw [hnext] at course
  cases course with
  | arrive event => exact ⟨hd.result, hd.trail, hd.queue.trans (List.prefix_append _ _), hd.visits⟩
  | idle => exact hd
  | hear _ hother | settle _ _ hother | fail _ hother | emit hother | emitted hother | crash hother =>
    rw [hphase] at hother
    cases hother
  | cancel hother =>
    rw [hphase] at hother
    rcases hother with hother | ⟨i, hother⟩
    . cases hother
    . cases hother

theorem Rests.playAll (h : c.loop.result? = some result) (moves : List (Move E)) :
    Rests c (c.playAll moves) := by
  apply playAll_induction (P := Rests c)
  . exact ⟨rfl, rfl, List.prefix_refl _, rfl⟩
  . intro d move hd
    exact hd.play h move

/--
The result of a run is there for good: afterwards no record is written and no action invoked, and what is
queued stays queued. The run has completed exactly if the record written last is about an event that was
accepted into the final state, and only the record written last can be. It has failed with a rejected event
exactly if the last record is about this event and no action was invoked because of it, and for the sake of a
schema exactly if the last record tells such a failure.
-/
theorem run_ends {context : Context E} {config : RunConfig} {l : Loop E}
    (h : Loop.start machine context seed config = .ok l) (moves : List (Move E)) :
    let c := (begin l).playAll moves
    (∀ result, c.loop.result? = some result → ∀ more,
        (c.playAll more).loop.result? = some result
        ∧ (c.playAll more).loop.trail = c.loop.trail
        ∧ (c.playAll more).visits = c.visits
        ∧ c.loop.queue <+: (c.playAll more).loop.queue)
    ∧ ∃ records : Trail,
        c.loop.trail = seed ++ records
        ∧ (c.loop.result? = some (.ok ()) ↔
            ∃ r, records.getLast? = some r ∧ r.failure = none ∧ r.target = some .final)
        ∧ (∀ r ∈ records.dropLast, r.target ≠ some .final)
        ∧ (∀ edge failure, c.loop.result? = some (.error (.rejected edge failure)) ↔
            (∃ r, records.getLast? = some r ∧ r.event.edge = edge ∧ r.failure = some failure
              ∧ (failure.kind = .validation ∨ failure.kind = .unknownTransition))
            ∧ ∀ v ∈ c.visits, v.cause + 1 ≠ records.length)
        ∧ ((∃ error, c.loop.result? = some (.error error) ∧ error.isOfSchema = true) ↔
            ∃ r, records.getLast? = some r
              ∧ ∃ failure, r.failure = some failure ∧ failure.kind = .schema) := by
  intro c
  have kept : Kept machine seed c := kept_playAll h moves
  have guarded : Guarded machine c := guarded_playAll h moves
  have concluded : Concluded c := concluded_playAll h moves
  constructor
  . intro result hresult more
    have rests := Rests.playAll hresult more
    exact ⟨rests.result.trans hresult, rests.trail, rests.visits, rests.queue⟩
  refine ⟨_, kept.trail_eq, ?_, ?_, ?_, ?_⟩
  . rw [completed_iff guarded concluded, exists_last_iff]
  . intro r hr
    rw [← List.map_dropLast] at hr
    rcases List.mem_map.1 hr with ⟨x, hx, rfl⟩
    exact (guarded.goesOn_of_earlier concluded hx).target_ne
  . intro edge failure
    rw [rejected_iff guarded concluded, List.length_map]
    rw [exists_last_iff (P := fun r => r.event.edge = edge ∧ r.failure = some failure
      ∧ (failure.kind = .validation ∨ failure.kind = .unknownTransition))]
    constructor
    . intro ⟨x, hx, hrecord⟩
      exact ⟨⟨x, hx.last, hrecord⟩, hx.alone⟩
    . intro ⟨⟨x, hx, hrecord⟩, halone⟩
      exact ⟨x, ⟨hx, halone⟩, hrecord⟩
  . rw [unusable_iff guarded concluded, exists_last_iff]

end Chronicle

/-!
A run that ends with an event from outside that is rejected, while another event is still queued.
-/

namespace Sample

def strayMoves : List (Move extension) :=
  [.arrive leaving, .arrive entering, .take provide]

def stray : Chronicle extension :=
  (Chronicle.begin loop).playAll strayMoves

end Sample

namespace Chronicle

theorem run_ends_stray :
    Loop.start Sample.machine Sample.context [] .standard = .ok Sample.loop
    ∧ Sample.stray.loop.queue = [⟨Sample.entering, .external⟩]
    ∧ (∃ failure, Sample.stray.loop.result? = some (.error (.rejected Sample.leaving.edge failure)))
    ∧ ∀ more, (Sample.stray.playAll more).loop.trail = Sample.stray.loop.trail := by
  have hstart : Loop.start Sample.machine Sample.context [] .standard = .ok Sample.loop := by rfl
  rcases run_ends hstart Sample.strayMoves with ⟨hrests, _⟩
  have hresult : ∃ failure,
      Sample.stray.loop.result? = some (.error (.rejected Sample.leaving.edge failure)) := ⟨_, rfl⟩
  refine ⟨hstart, rfl, hresult, ?_⟩
  intro more
  rcases hresult with ⟨failure, hresult⟩
  exact (hrests _ hresult more).2.1

end Chronicle

end Turnstile
