import Turnstile.Proofs.Bridge.Closing

/-!
This module contains what comes after the end of a liaison: whoever is about to say something then is told that the
channel is closed, and nothing that they say is queued.
-/

namespace Turnstile

namespace Dialogue

/-- What comes of a dialogue if nothing can be said any more. -/
def whenClosed : Dialogue α → α
  | done result => result
  | ask _ _ _ _ next => (next (.error .closed)).whenClosed
  | tell _ _ next => (next (.error .closed)).whenClosed
  | pause _ next => (next ()).whenClosed

/-- The steps that this takes at most. -/
def span : Dialogue α → Nat
  | done _ => 1
  | ask _ _ _ _ next => (next (.error .closed)).span + 6
  | tell _ _ next => (next (.error .closed)).span + 2
  | pause _ next => (next ()).span + 1

theorem span_pos (d : Dialogue α) : 0 < d.span := by
  cases d with
  | done | ask | tell | pause => exact Nat.succ_pos _

theorem whenClosed_map (f : α → β) (d : Dialogue α) : (d.map f).whenClosed = f d.whenClosed := by
  induction d with
  | done result => rfl
  | ask method params limit cancels next ih => exact ih _
  | tell method params next ih => exact ih _
  | pause time next ih => exact ih _

theorem whenClosed_listFrom (config : BridgeConfig) (left : Nat) (seen : List String) (cursor : Option String)
    (tools : List Tool) : (Listing.listFrom config left seen cursor tools).whenClosed = .error .closed := by
  -- The recursion is within what is done with a page, so that there is no equation to rewrite with.
  delta Listing.listFrom
  cases left with
  | zero => rfl
  | succ left => rfl

theorem whenClosed_listTools (config : BridgeConfig) : (listTools config).whenClosed = .error .closed :=
  whenClosed_listFrom config _ [] none []

end Dialogue

namespace Errand

/-- Is the errand one of those that a bridge does after its start? -/
def isLater : Errand → Bool
  | introduce _ => false
  | call (.many []) _ _ => false
  | _ => true

theorem whenClosed_talk (errand : Errand) (h : errand.isLater) : errand.talk.whenClosed = .error .closed := by
  cases errand with
  | introduce config => cases h
  | ask method params limit cancels => rfl
  | tell method params => rfl
  | call calls limit cancels =>
    unfold talk
    rw [Dialogue.whenClosed_map]
    cases calls with
    | one only => rfl
    | many calls =>
      cases calls with
      | nil => cases h
      | cons first rest => rfl
  | refresh config =>
    unfold talk
    rw [Dialogue.whenClosed_map, Dialogue.whenClosed_listTools]
    rfl

end Errand

namespace Liaison

variable {l : Liaison} {s : Step} {v : Visitor} {i : Nat} {result : Except BridgeError Answer}

/-- The visitor can only come to this result, in not more steps than that, and queues nothing on the way. -/
def Bound (l : Liaison) (result : Except BridgeError Answer) (steps : Nat) : Stage → Prop
  | .before rest => rest.whenClosed = result ∧ rest.span ≤ steps
  | .drawing _ _ _ _ next =>
    (next (.error .closed)).whenClosed = result ∧ (next (.error .closed)).span + 5 ≤ steps
  | .asking n next =>
    (next (.error .closed)).whenClosed = result ∧ ∃ a, l.exchange.asks[n]? = some a ∧ a.progress.isBarred ∧
      l.exchange.channel.ends a ⊆ [.error .closed] ∧
      (next (.error .closed)).span + a.progress.span + 1 ≤ steps
  | .checking _ next =>
    (next (.error .closed)).whenClosed = result ∧ (next (.error .closed)).span + 1 ≤ steps
  | .telling _ _ => False
  | .returned other => other = result

theorem Bound.eq_of_returned (h : l.Bound result steps (.returned other)) : other = result :=
  h

theorem Bound.returned (h : l.Bound result 0 stage) : stage = .returned result := by
  cases stage with
  | before rest =>
    have := rest.span_pos
    have := h.2
    omega
  | drawing =>
    have := h.2
    omega
  | asking =>
    rcases h.2 with ⟨_, _, _, _, _⟩
    omega
  | checking =>
    have := h.2
    omega
  | telling => cases h
  | returned other => rw [h]

theorem Bound.keep {l' : Liaison} (h : l.Bound result steps stage)
    (ht : ∀ n a, l.exchange.asks[n]? = some a → a.progress.isBarred →
      Exchange.Tends l.exchange l'.exchange n a a.progress.span) : l'.Bound result steps stage := by
  cases stage with
  | asking n next =>
    rcases h with ⟨hr, a, ha, hb, he, hs⟩
    rcases ht n a ha hb with ⟨a', ha', hn⟩
    have := hn.span
    exact ⟨hr, a', ha', hn.isBarred hb, List.Subset.trans hn.ends he, by omega⟩
  | telling => cases h
  | _ => exact h

def IsBound (l : Liaison) (i : Nat) (result : Except BridgeError Answer) (steps : Nat) : Prop :=
  ∃ v, l.visitors[i]? = some v ∧ l.Bound result steps v.stage

theorem isBound_turn (hv : l.visitors[i]? = some v) (hb : (l.turn i v stage).Bound result steps stage) :
    (l.turn i v stage).IsBound i result steps := by
  refine ⟨{ v with stage }, ?_, hb⟩
  show (l.visitors.set i _)[i]? = _
  rw [List.getElem?_set_self (List.getElem?_eq_some_iff.mp hv).1]

/-- A visitor that is bound to a result queues nothing. -/
theorem IsBound.quiet (h : l.IsBound i result steps) (hs : s.visitor? = some i) :
    l.exchange.Quiet (l.play s).exchange := by
  rcases h with ⟨v, hv, hb⟩
  have hq := l.exchange.quiet_self
  cases s with
  | proceed j =>
    cases hs
    show l.exchange.Quiet (l.attend i _).exchange
    rw [attend_of_getElem? hv]
    unfold proceed
    split
    . exact hq
    . exact hq
    . split <;> exact hq
    . split <;> exact hq
    . exact ⟨rfl, rfl⟩
    . next n next hs =>
      rw [hs] at hb
      rcases hb with ⟨_, a, ha, hp, _, _⟩
      split
      . exact hq
      . show l.exchange.Quiet (l.exchange.follow n _)
        unfold Exchange.follow
        rw [ha]
        exact l.exchange.quiet_advance n hp
    . split <;> exact hq
    . next hs =>
      rw [hs] at hb
      cases hb
    . exact hq
  | refuse j =>
    cases hs
    show l.exchange.Quiet (l.attend i _).exchange
    rw [attend_of_getElem? hv]
    unfold refuse
    split
    . exact l.exchange.quiet_refuse _
    . exact hq
    . exact hq
  | lapse j =>
    cases hs
    show l.exchange.Quiet (l.attend i _).exchange
    rw [attend_of_getElem? hv]
    unfold lapse
    split
    . split
      . exact l.exchange.quiet_lapse _
      . exact hq
    . exact hq
  | _ => cases hs

/-- What a request that is barred comes to does not depend on any identifiers. -/
theorem counted_of_isBarred {e : Exchange} {a : Asking} (h : a.progress.isBarred) :
    a.progress.isCommitted → e.Counted := by
  rw [Progress.isCommitted_eq_false h]
  nofun

namespace Closed

theorem isBound_proceed (h : l.Closed) (hv : l.visitors[i]? = some v) (hs : l.Bound result steps v.stage) :
    (l.play (.proceed i)).IsBound i result (steps - 1) := by
  show (l.attend i _).IsBound i result (steps - 1)
  rw [attend_of_getElem? hv]
  unfold proceed
  split
  . next r hq =>
    rw [hq] at hs
    exact isBound_turn hv hs.1
  . next next hq =>
    rw [hq] at hs
    exact isBound_turn hv ⟨hs.1, Nat.le_sub_one_of_lt hs.2⟩
  . next next hq =>
    rw [hq] at hs
    rcases hs with ⟨hr, hn⟩
    unfold Dialogue.span at hn
    split
    . exact isBound_turn hv ⟨hr, by omega⟩
    . exact isBound_turn hv ⟨hr, by omega⟩
  . next next hq =>
    rw [hq] at hs
    rcases hs with ⟨hr, hn⟩
    unfold Dialogue.span at hn
    split
    . exact isBound_turn hv ⟨hr, by omega⟩
    . exact isBound_turn hv ⟨hr, by omega⟩
  . next method params limit cancels next hq =>
    rw [hq] at hs
    rcases hs with ⟨hr, hn⟩
    -- The request is new, and its steps have not begun.
    refine isBound_turn (l := l.after _) hv ⟨hr, _, List.getElem?_concat_length, rfl, List.Subset.refl _, ?_⟩
    show _ + 3 + 1 ≤ _
    omega
  . next n next hq =>
    rw [hq] at hs
    rcases hs with ⟨hr, a, ha, hb, he, hn⟩
    cases hp : a.progress with
    | done outcome =>
      have ho : l.exchange.outcome? n = some outcome := by
        unfold Exchange.outcome?
        rw [ha]
        exact congrArg Progress.outcome? hp
      have hc : outcome = .error .closed := by
        unfold Channel.ends at he
        rw [hp] at he
        simpa using he
      rw [ho]
      subst hc
      exact isBound_turn hv ⟨hr, by omega⟩
    | _ =>
      have hd : a.progress.isDone = false := by
        rw [hp]
        rfl
      have hs : 0 < a.progress.span := by
        rw [hp]
        decide
      rw [outcome?_eq_none ha hd]
      rcases h.tends_advance (counted_of_isBarred hb) ha with ⟨a', ha', ht⟩
      have := ht.span
      refine ⟨v, hv, ?_⟩
      rw [hq]
      exact ⟨hr, a', ha', ht.isBarred hb, List.Subset.trans ht.ends he, by omega⟩
  . next notification next hq =>
    rw [hq] at hs
    rcases hs with ⟨hr, hn⟩
    rw [h.ceased.isAlive]
    exact isBound_turn hv ⟨hr, by omega⟩
  . next hq =>
    rw [hq] at hs
    cases hs
  . next hq =>
    refine ⟨v, hv, ?_⟩
    rw [hq] at hs ⊢
    exact hs

theorem isBound_play (h : l.Closed) (hb : l.IsBound i result steps) (s : Step) :
    (l.play s).IsBound i result (steps - if s.proceeds i then 1 else 0) := by
  rcases hb with ⟨v, hv, hs⟩
  have hk : (l.play s).visitors[i]? = some v → (l.play s).IsBound i result steps := by
    intro hv'
    exact ⟨v, hv', hs.keep fun n a ha hb => h.tends_play (counted_of_isBarred hb) ha s⟩
  by_cases ht : s.visitor? = some i
  . cases s with
    | proceed j =>
      cases ht
      have hp : (Step.proceed i).proceeds i = true := beq_self_eq_true i
      rw [hp]
      exact h.isBound_proceed hv hs
    | refuse j =>
      cases ht
      apply hk
      show (l.attend i _).visitors[i]? = _
      rw [attend_of_getElem? hv]
      unfold refuse
      split
      . exact hv
      . next hq =>
        rw [hq] at hs
        cases hs
      . exact hv
    | lapse j =>
      cases ht
      apply hk
      show (l.attend i _).visitors[i]? = _
      rw [attend_of_getElem? hv, visitors_lapse]
      exact hv
    | _ => cases ht
  . have hp : s.proceeds i = false := by
      cases s with
      | proceed j => simpa [Step.proceeds, Step.visitor?] using ht
      | _ => rfl
    rw [hp]
    exact hk (getElem?_play hv ht)

theorem isBound_playAll (h : l.Closed) (hb : l.IsBound i result steps) (more : List Step) :
    (l.playAll more).IsBound i result (steps - more.countP (Step.proceeds i)) := by
  induction more generalizing l steps with
  | nil => exact hb
  | cons s rest ih =>
    have := ih (h.play s) (h.isBound_play hb s)
    rwa [Nat.sub_sub, Nat.add_comm, ← List.countP_cons] at this

end Closed

end Liaison

end Turnstile
