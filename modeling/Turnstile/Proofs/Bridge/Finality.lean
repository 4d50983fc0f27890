import Turnstile.Proofs.Bridge.Aftermath
import Turnstile.Proofs.Bridge.Refusal

/-!
This module contains the finality of closing. Once the reader has come to its end or somebody has closed the channel,
it is settled how each request ends, nobody can say anything any more, and to shut down again does nothing.
-/

namespace Turnstile

namespace Progress

/-- Has the request given up, although it has not returned yet? -/
def isOverdue : Progress → Bool
  | expired | leaving | notifying => true
  | _ => false

theorem exists_done_of_span {p : Progress} (h : p.span ≤ 0) : ∃ outcome, p = done outcome := by
  cases p with
  | done outcome => exact ⟨outcome, rfl⟩
  | _ => cases h

end Progress

namespace Exchange

variable {e : Exchange} {a : Asking}

/-- The response to the request has come, and the request has returned with it or will find it. -/
def Given (e : Exchange) (a : Asking) (r : Rpc.Response) : Prop :=
  (∃ position, e.Hears position a.id r) ∧
    (a.progress = .done (Channel.outcome a.request r) ∨
      a.progress.isCommitted ∧ e.channel.answers.lookup a.id = some r)

/-- Nothing has come for the request, and nothing can come any more. -/
def Stranded (e : Exchange) (a : Asking) : Prop :=
  a.progress = .done (.error .closed) ∨
    a.progress.isCommitted ∧ a.id ∉ e.channel.pending ∧ e.channel.answers.lookup a.id = none

theorem Ceased.given_or_stranded (h : e.Ceased) (hk : e.Counted) (hr : e.Reasoned) (ha : a ∈ e.asks)
    (hc : a.progress.isCommitted) :
    (∃ r, e.Given a r ∧ e.channel.verdict a.request = Channel.outcome a.request r) ∨
      e.Stranded a ∧ e.channel.verdict a.request = .error .closed := by
  unfold Channel.verdict
  cases hl : e.channel.answers.lookup a.request.id with
  | some r =>
    rcases List.lookup_eq_some_iff.mp hl with ⟨before, behind, he, _⟩
    have hm : (a.id, r) ∈ e.channel.answers := by simp [he]
    exact .inl ⟨r, ⟨hr.answers a.id r hm, .inr ⟨hc, hl⟩⟩, rfl⟩
  | none =>
    have hp := h.not_mem_pending hk ha (Progress.isEntering_eq_false hc)
    exact .inr ⟨.inr ⟨hc, hp, hl⟩, rfl⟩

theorem Ceased.pending_eq_nil (h : e.Ceased) (hn : ∀ a ∈ e.asks, a.progress.isEntering = false) :
    e.channel.pending = [] := by
  apply List.eq_nil_iff_forall_not_mem.mpr
  intro id hm
  rcases h.pending id hm with ⟨a, ha, _, hp⟩
  cases (hn a ha).symm.trans hp

end Exchange

namespace Liaison

variable {l : Liaison} {a : Asking} {m n : Nat}

/-! ## How requests end -/

/-- A few steps of its visitor bring a request to one of the outcomes, without an entry, whatever else happens. -/
def Concludes (l : Liaison) (n : Nat) (a : Asking) (outcomes : List (Except BridgeError Json)) : Prop :=
  ∃ i, l.Drives i n a ∧ ∀ more, (l.playAll more).exchange.asks.length ≤ UInt64.size →
    a.progress.span ≤ more.countP (Step.proceeds i) →
      ∃ b, (l.playAll more).exchange.asks[n]? = some b ∧ b.request = a.request ∧
        (∃ outcome ∈ outcomes, b.progress = .done outcome) ∧ b.id ∉ (l.playAll more).exchange.channel.pending

/-- How a request stands to a channel that has been closed, and how it ends. -/
inductive Fate (l : Liaison) (n : Nat) (a : Asking) : Prop where
  | answered (r : Rpc.Response) (given : l.exchange.Given a r)
    (concludes : l.Concludes n a [Channel.outcome a.request r])
  /-- The response has come before the request could be sent, which it may now not be. -/
  | early (r : Rpc.Response) (cleared : a.progress = .cleared) (given : l.exchange.Given a r)
    (concludes : l.Concludes n a [.error .closed, Channel.outcome a.request r])
  | late (lapsed : a.progress.isOverdue ∨ a.progress = a.timeout)
    (concludes : l.Concludes n a [.error (.timeout a.request a.limit)])
  | stranded (stranded : l.exchange.Stranded a) (concludes : l.Concludes n a [.error .closed])
  /-- The request has yet to look whether the channel is alive. -/
  | entering (entering : a.progress.isDrawn ∨ a.progress.isEntering)
    (concludes : l.Concludes n a [.error .closed])

theorem Concludes.of_subset (h : l.Concludes n a few) (hs : few ⊆ outcomes) : l.Concludes n a outcomes := by
  rcases h with ⟨i, hd, h⟩
  refine ⟨i, hd, ?_⟩
  intro more hb hm
  rcases h more hb hm with ⟨b, hn, hr, ⟨outcome, ho, hp⟩, hq⟩
  exact ⟨b, hn, hr, ⟨outcome, hs ho, hp⟩, hq⟩

theorem Closed.concludes (h : l.Closed) (hk : l.exchange.Counted) (hd : l.Driven)
    (ha : l.exchange.asks[n]? = some a) : l.Concludes n a (l.exchange.channel.ends a) := by
  rcases hd n a ha with ⟨i, hi⟩
  refine ⟨i, hi, ?_⟩
  intro more hb hm
  rcases h.tends_playAll hk hi ha more hb with ⟨b, hn, ht⟩
  rcases Progress.exists_done_of_span (Nat.le_trans ht.span (Nat.sub_le_of_le_add (by omega))) with ⟨outcome, hp⟩
  refine ⟨b, hn, ht.request, ⟨outcome, ?_, hp⟩, ?_⟩
  . apply ht.ends
    unfold Channel.ends
    rw [hp]
    exact List.mem_singleton_self outcome
  . apply (h.playAll more).ceased.not_mem_pending (counted_playAll hk more hb) (List.mem_of_getElem? hn)
    rw [hp]
    rfl

theorem Closed.fate (h : l.Closed) (hk : l.exchange.Counted) (hr : l.exchange.Reasoned) (hd : l.Driven)
    (ha : l.exchange.asks[n]? = some a) : l.Fate n a := by
  have hc := h.concludes hk hd ha
  have hm := List.mem_of_getElem? ha
  unfold Channel.ends at hc
  -- Whoever has passed the channel only finds what is there by now, and whoever has not finds it closed.
  cases hp : a.progress with
  | drawn =>
    rw [hp] at hc
    exact .entering (.inl (by rw [hp]; rfl)) hc
  | registered | refused =>
    rw [hp] at hc
    exact .entering (.inr (by rw [hp]; rfl)) hc
  | cleared =>
    rw [hp] at hc
    dsimp only at hc
    rcases h.ceased.given_or_stranded hk hr hm (by rw [hp]; rfl) with ⟨r, hg, hv⟩ | ⟨hs, hv⟩
    . rw [hv] at hc
      exact .early r hp hg hc
    . rw [hv] at hc
      exact .stranded hs (hc.of_subset (by simp))
  | waiting =>
    rw [hp] at hc
    dsimp only at hc
    rcases h.ceased.given_or_stranded hk hr hm (by rw [hp]; rfl) with ⟨r, hg, hv⟩ | ⟨hs, hv⟩
    . rw [hv] at hc
      exact .answered r hg hc
    . rw [hv] at hc
      exact .stranded hs hc
  | expired | leaving | notifying =>
    rw [hp] at hc
    exact .late (.inl (by rw [hp]; rfl)) hc
  | done outcome =>
    rw [hp] at hc
    rcases hr.outcomes a hm outcome hp with ⟨position, r, hh, ho⟩ | ho | ho
    . subst ho
      exact .answered r ⟨⟨position, hh⟩, .inl hp⟩ hc
    . subst ho
      exact .late (.inr hp) hc
    . subst ho
      exact .stranded (.inl hp) hc

/-! ## What is said afterwards -/

/-- The visitor can come to no other result, does so with that many steps of its own, and has nothing queued. -/
structure Refuses (l : Liaison) (i : Nat) (result : Except BridgeError Answer) (steps : Nat) : Prop where
  returns : ∀ more, steps ≤ more.countP (Step.proceeds i) →
    ∃ v, (l.playAll more).visitors[i]? = some v ∧ v.stage = .returned result
  only : ∀ more v other, (l.playAll more).visitors[i]? = some v → v.stage = .returned other → other = result
  quiet : ∀ more s, s.visitor? = some i →
    (l.playAll more).exchange.Quiet ((l.playAll more).play s).exchange

theorem Closed.refuses (h : l.Closed) (hb : l.IsBound i result steps) : l.Refuses i result steps where
  returns more hm := by
    rcases h.isBound_playAll hb more with ⟨v, hv, hs⟩
    rw [Nat.sub_eq_zero_of_le hm] at hs
    exact ⟨v, hv, hs.returned⟩
  only more v other hv hs := by
    rcases h.isBound_playAll hb more with ⟨w, hw, hr⟩
    cases hw.symm.trans hv
    rw [hs] at hr
    exact hr.eq_of_returned
  quiet more _ hs := (h.isBound_playAll hb more).quiet hs

theorem Closed.refuses_visit (h : l.Closed) {errand : Errand} (hl : errand.isLater) :
    (l.play (.visit errand)).Refuses l.visitors.length (.error .closed) errand.talk.span := by
  apply (h.play (.visit errand)).refuses
  exact ⟨_, List.getElem?_concat_length, errand.whenClosed_talk hl, Nat.le_refl _⟩

/-! ## Shutting down again -/

/-- To shut down returns at once, and does nothing. -/
structure Spares (l : Liaison) : Prop where
  play : l.play .shutdown = { l with closings := l.closings ++ [.spared] }
  returns : ∀ more, ((l.play .shutdown).playAll more).closings[l.closings.length]?.bind Closing.result? =
    some (.ok ())
  idle : ∀ more result, ((l.play .shutdown).playAll more).play (.close l.closings.length result) =
    (l.play .shutdown).playAll more

theorem isShut_shutdown (l : Liaison) : (l.play .shutdown).isShut := by
  show l.shutdown.isShut
  unfold shutdown
  split
  . next h => exact h
  . rfl

theorem isShut_play (h : l.isShut) (s : Step) : (l.play s).isShut := by
  cases hs : s.closes with
  | false => exact (aside_play l hs).isShut.trans h
  | true =>
    cases s with
    | leave =>
      show l.leave.isShut
      unfold leave
      split <;> exact h
    | abort =>
      show l.abort.isShut
      unfold abort
      split <;> exact h
    | shutdown => exact isShut_shutdown l
    | drop => exact h
    | close m result =>
      show (l.close m result).isShut
      unfold close
      split <;> exact h
    | _ => cases hs

theorem spared_close (h : l.closings[m]? = some .spared) (k : Nat) (result : Except BridgeError Unit) :
    (l.close k result).closings[m]? = some .spared := by
  have hs : ∀ {other} closing, l.closings[k]? = some other → other ≠ .spared →
      (l.closings.set k closing)[m]? = some .spared := by
    intro other closing hc hn
    rw [List.getElem?_set_ne, h]
    intro he
    subst he
    exact hn (Option.some.inj (hc.symm.trans h))
  unfold close
  split
  . next hc => exact hs _ hc nofun
  . next hc => exact hs _ hc nofun
  . next hc => exact hs _ hc nofun
  . exact h
  . exact h
  . exact h

theorem spared_play (h : l.closings[m]? = some .spared) (s : Step) :
    (l.play s).closings[m]? = some .spared := by
  have hj : ∀ closing, (l.closings ++ [closing])[m]? = some .spared := by
    intro closing
    rw [List.getElem?_append_left (List.getElem?_eq_some_iff.mp h).1, h]
  cases hs : s.closes with
  | false => rw [(aside_play l hs).closings, h]
  | true =>
    cases s with
    | leave =>
      show l.leave.closings[m]? = _
      unfold leave
      split <;> exact h
    | abort =>
      show l.abort.closings[m]? = _
      unfold abort
      split <;> exact h
    | shutdown =>
      show l.shutdown.closings[m]? = _
      unfold shutdown
      split
      . exact hj _
      . exact hj _
    | drop => exact hj _
    | close k result => exact spared_close h k result
    | _ => cases hs

theorem isShut_playAll (h : l.isShut) (steps : List Step) : (l.playAll steps).isShut := by
  induction steps generalizing l with
  | nil => exact h
  | cons s rest ih => exact ih (isShut_play h s)

theorem spared_playAll (h : l.closings[m]? = some .spared) (steps : List Step) :
    (l.playAll steps).closings[m]? = some .spared := by
  induction steps generalizing l with
  | nil => exact h
  | cons s rest ih => exact ih (spared_play h s)

theorem spares_of_isShut (h : l.isShut) : l.Spares := by
  have hp : l.play .shutdown = { l with closings := l.closings ++ [.spared] } := if_pos h
  have hs : ∀ more, ((l.play .shutdown).playAll more).closings[l.closings.length]? = some .spared := by
    intro more
    apply spared_playAll
    rw [hp]
    exact List.getElem?_concat_length
  refine ⟨hp, ?_, ?_⟩
  . intro more
    rw [hs more]
    rfl
  . intro more result
    show close _ _ _ = _
    unfold close
    rw [hs more]

/-! ## All of it -/

/-- What a closed liaison comes to, whatever happens from then on. -/
structure Final (l : Liaison) : Prop where
  closed : ∀ more, (l.playAll more).isClosed ∧ (l.playAll more).isOpen = false
  /-- Identifiers come again after so many requests. -/
  fates : l.exchange.asks.length ≤ UInt64.size → ∀ n a, l.exchange.asks[n]? = some a → l.Fate n a
  pending : (∀ a ∈ l.exchange.asks, a.progress.isEntering = false) → l.exchange.channel.pending = []
  /-- Whoever is between two messages gets no further one through. -/
  resumed : ∀ i v rest, l.visitors[i]? = some v → v.stage = .before rest →
    l.Refuses i rest.whenClosed rest.span
  later : ∀ errand : Errand, errand.isLater →
    (l.play (.visit errand)).Refuses l.visitors.length (.error .closed) errand.talk.span

theorem Closed.final (h : l.Closed) (hk : l.exchange.asks.length ≤ UInt64.size → l.exchange.Counted)
    (hr : l.exchange.Reasoned) (hd : l.Driven) : l.Final where
  closed more := ⟨(h.playAll more).isClosed, (h.playAll more).isOpen⟩
  fates hb _ _ ha := h.fate (hk hb) hr hd ha
  pending := h.ceased.pending_eq_nil
  resumed i v rest hv hs := by
    apply h.refuses
    refine ⟨v, hv, ?_⟩
    rw [hs]
    exact ⟨rfl, Nat.le_refl _⟩
  later errand hl := h.refuses_visit hl

/--
Closing is final, whatever has happened before and in whatever order, and no request waits on for nothing. To shut
down a second time returns at once, and does nothing. The same is true of a bridge that is used by one only.
-/
theorem closing_final (steps : List Step) :
    ((start.playAll steps).isClosed → (start.playAll steps).Final)
    ∧ (∀ more, (((start.playAll steps).play .shutdown).playAll more).Spares)
    ∧ (∀ b : Bridge, b.link.channel.isAlive = false → b.Refuses)
    ∧ ∀ b : Bridge, b.shutdown.shutdown = b.shutdown ∧ (b.isShut = false → b.shutdown.Refuses) := by
  refine ⟨?_, ?_, fun _ => Bridge.refuses_of_not_isAlive, ?_⟩
  . intro h
    have hc : (start.playAll steps).Closed := ⟨h, ordered_playAll ordered_start steps⟩
    have hk : start.exchange.Counted := ⟨Exchange.sound_start, by decide⟩
    have hr : start.exchange.Reasoned := Exchange.reasoned_start
    exact hc.final (counted_playAll hk steps) (reasoned_playAll hr steps) (driven_playAll driven_start steps)
  . intro more
    exact spares_of_isShut (isShut_playAll (isShut_shutdown _) more)
  . intro b
    exact ⟨b.shutdown_shutdown, Bridge.refuses_shutdown⟩

namespace Sample

def ask (method : String) : Step :=
  .visit (.ask method none (.ofSeconds 1) true)

/-- The first request waits when the output of the server ends, and the second one is registered after that. -/
def steps : List Step :=
  [ask "first", ask "second"] ++ List.replicate 5 (.proceed 0) ++ List.replicate 2 (.proceed 1) ++
  List.replicate 3 .leave ++ [.proceed 1]

def more : List Step :=
  [.proceed 1, .proceed 0, .proceed 1]

end Sample

theorem closing_final_end :
    (start.playAll Sample.steps).isClosed ∧ (start.playAll Sample.steps).Final
    ∧ (start.playAll Sample.steps).exchange.asks.map Asking.progress = [.waiting, .registered]
    ∧ (start.playAll Sample.steps).exchange.channel.pending = [2]
    ∧ ((start.playAll Sample.steps).playAll Sample.more).exchange.asks.map Asking.progress =
        [.done (.error .closed), .done (.error .closed)]
    ∧ ((start.playAll Sample.steps).playAll Sample.more).exchange.channel.pending = [] := by
  have h : (start.playAll Sample.steps).isClosed := by decide +kernel
  refine ⟨h, (closing_final Sample.steps).1 h, ?_⟩
  decide +kernel

end Liaison

end Turnstile
