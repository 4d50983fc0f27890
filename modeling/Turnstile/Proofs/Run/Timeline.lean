import Turnstile.Proofs.Run.Chronicle
import Turnstile.Run.Timeline

/-!
This module contains the proof that runs on a timeline only make moves, so that what holds after all moves
holds at every moment of a timeline.
-/

namespace Turnstile

namespace Loop

variable {E : Extension}

theorem playAll_append (l : Loop E) (moves more : List (Move E)) :
    l.playAll (moves ++ more) = (l.playAll moves).playAll more := by
  unfold playAll
  rw [List.foldl_append]

theorem submit_playAll {l next : Loop E} {event : Event} (h : l.submit event = .ok next) :
    next = l.playAll [.arrive event] := by
  unfold submit at h
  split at h
  . injection h with h
    exact h.symm
  . cases h

theorem send_playAll (l : Loop E) (events : List Event) :
    l.send .external events = l.playAll (events.map .arrive) := by
  induction events generalizing l with
  | nil => simp [send, playAll]
  | cons event rest ih =>
    have hrest := ih (l.send .external [event])
    rw [List.map_cons]
    refine Eq.trans ?_ hrest
    simp [send]

theorem emitAll_playAll (l : Loop E) : ∃ moves, l.emitAll = l.playAll moves := by
  cases hphase : l.phase with
  | emitting p events =>
    induction events generalizing l with
    | nil =>
      refine ⟨[.emit], ?_⟩
      simp [emitAll, playAll, play, emit, hphase, send]
    | cons event rest ih =>
      rcases ih l.emit (by simp [emit, hphase]) with ⟨moves, hmoves⟩
      refine ⟨.emit :: moves, ?_⟩
      refine Eq.trans ?_ hmoves
      simp [emitAll, emit, hphase, send]
  | _ =>
    refine ⟨[], ?_⟩
    simp [emitAll, playAll, hphase]

theorem resume_playAll (l : Loop E) (outcome : Except ActionError (Context E × Step)) :
    ∃ moves, l.resume outcome = l.playAll moves := by
  rcases (l.settle outcome).emitAll_playAll with ⟨moves, hmoves⟩
  exact ⟨.settle outcome :: moves, hmoves⟩

end Loop

theorem Run.stop_loop {E : Extension} {σ : Type} (release : RunRelease E σ) (r : Run E) (world : σ) :
    (r.stop release world).2.1.loop = r.loop
    ∨ (r.stop release world).2.1.loop = r.loop.emitAll.cancel := by
  unfold Run.stop
  split
  . left
    rfl
  . right
    dsimp only
    split
    . rfl
    . rfl

namespace Timeline

variable {E : Extension} {σ : Type}

/-- The loop of the second timeline is the one of the first after some moves. -/
def Leads (t u : Timeline E σ) : Prop :=
  ∃ moves, u.run.loop = t.run.loop.playAll moves

theorem Leads.refl (t : Timeline E σ) : Leads t t := by
  exact ⟨[], rfl⟩

theorem Leads.trans {t u v : Timeline E σ} (h : Leads t u) (h' : Leads u v) : Leads t v := by
  rcases h with ⟨moves, hmoves⟩
  rcases h' with ⟨more, hmore⟩
  refine ⟨moves ++ more, ?_⟩
  rw [Loop.playAll_append, ← hmoves, hmore]

theorem begin_leads (s : Surroundings E σ) (t : Timeline E σ) (i : Invocation E) :
    Leads t (t.begin s i) := by
  exact ⟨_, t.run.loop.send_playAll _⟩

theorem settle_leads (t : Timeline E σ) (moment : Duration) (ending : Ending E) :
    Leads t (t.settle moment ending) := by
  cases ending with
  | returned outcome => exact t.run.loop.resume_playAll outcome
  | crashed => exact ⟨[.crash], rfl⟩

theorem advance_leads (s : Surroundings E σ) (deadline : Duration) (steps : Nat)
    (t : Timeline E σ) : Leads t (t.advance s deadline steps) := by
  induction steps generalizing t with
  | zero => exact .refl t
  | succ steps ih =>
    unfold advance
    split
    . split
      . exact .refl t
      . refine Leads.trans ?_ (ih _)
        exact ⟨[.take (s.provide t.world)], rfl⟩
    . next i hphase =>
      split
      . exact (begin_leads s t i).trans (ih _)
      . next moment ending hdue =>
        split
        . exact (settle_leads t t.now ending).trans (ih _)
        . split
          . exact (settle_leads t moment ending).trans (ih _)
          . exact .refl t
    . exact .refl t

theorem wait_leads (s : Surroundings E σ) (limit : Duration) (t : Timeline E σ) :
    Leads t (t.wait s limit).2 := by
  unfold wait
  split
  . exact .refl t
  . split
    . exact .refl t
    . exact advance_leads s _ _ t

theorem submit_leads {t u : Timeline E σ} {event : Event} (h : t.submit event = .ok u) :
    Leads t u := by
  unfold submit Run.submit at h
  cases hsubmit : t.run.loop.submit event with
  | error error =>
    rw [hsubmit] at h
    cases h
  | ok next =>
    rw [hsubmit] at h
    injection h with h
    subst h
    exact ⟨_, Loop.submit_playAll hsubmit⟩

theorem stop_leads (s : Surroundings E σ) (t : Timeline E σ) : Leads t (t.stop s).2 := by
  rcases Run.stop_loop s.release t.run t.world with hloop | hloop
  . exact ⟨[], hloop⟩
  . rcases t.run.loop.emitAll_playAll with ⟨moves, hmoves⟩
    refine ⟨moves ++ [.cancel], ?_⟩
    rw [Loop.playAll_append, ← hmoves]
    exact hloop

end Timeline

end Turnstile
