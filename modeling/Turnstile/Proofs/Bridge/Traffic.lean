import Mathlib.Data.List.Forall2
import Turnstile.Bridge.Link
import Turnstile.Proofs.Bridge.Correlation

/-!
This module contains the proof that links do nothing but moves, so that what holds of an exchange after all
moves holds of links as well, of which each takes its requests through their steps in its own order.
-/

namespace Turnstile

namespace Exchange

/-- Can moves lead to the channel and the requests? -/
def Leads (e : Exchange) (c : Channel) (asks : List Asking) : Prop :=
  ∃ moves, (e.playAll moves).channel = c ∧ (e.playAll moves).asks = asks

variable {e : Exchange} {c c' : Channel} {asks asks' : List Asking}

namespace Leads

theorem refl (hc : e.channel = c) (ha : e.asks = asks) : e.Leads c asks :=
  ⟨[], hc, ha⟩

theorem after (moves : List Move) (h : (e.playAll moves).Leads c asks) : e.Leads c asks := by
  rcases h with ⟨others, h⟩
  refine ⟨moves ++ others, ?_⟩
  unfold playAll at h ⊢
  rw [List.foldl_append]
  exact h

theorem step (move : Move) (h : (e.play move).Leads c asks) : e.Leads c asks :=
  after [move] h

theorem trans (h : e.Leads c asks)
    (hs : ∀ other : Exchange, other.channel = c → other.asks = asks → other.Leads c' asks') :
    e.Leads c' asks' := by
  rcases h with ⟨moves, hc, ha⟩
  exact after moves (hs _ hc ha)

end Leads

/-! ## Writing, hearing and closing -/

theorem leads_writeAll (l : Link) (he : e.channel = { l.channel with outbound := lines })
    (ho : l.channel.outbound = []) : e.Leads (l.writeAll lines).channel e.asks := by
  induction lines generalizing e l with
  | nil =>
    apply Leads.refl _ rfl
    rw [he]
    show { l.channel with outbound := [] } = l.channel
    rw [← ho]
  | cons line rest ih =>
    unfold Link.writeAll
    split
    . next session _ =>
      apply Leads.step .take
      rw [← asks_take]
      apply ih { l with session } _ ho
      show e.take.channel = _
      unfold take
      rw [he]
    . apply Leads.step .hush
      apply Leads.step .discard
      apply Leads.refl _ rfl
      show e.channel.hush.discard = _
      rw [he]
      rfl

theorem leads_flush (l : Link) (he : e.channel = l.channel) : e.Leads l.flush.channel e.asks := by
  apply leads_writeAll { l with channel := l.channel.takeOutbound.2 } _ rfl
  exact he

theorem leads_deliver (lines : List String) (he : e.channel = c) :
    e.Leads (lines.foldl Channel.deliver c) e.asks := by
  induction lines generalizing e c with
  | nil => exact Leads.refl he rfl
  | cons line rest ih =>
    apply Leads.step (.deliver line)
    rw [← asks_deliver e line]
    apply ih
    show (e.deliver line).channel = _
    rw [channel_deliver, he]

theorem leads_endOutput (he : e.channel = c) : e.Leads c.endOutput e.asks := by
  apply Leads.step .hush
  apply Leads.step .release
  apply Leads.step .mute
  apply Leads.refl _ rfl
  show e.channel.hush.release.mute = _
  rw [he]
  rfl

theorem leads_close (l : Link) (he : e.channel = l.channel) : e.Leads l.close.channel e.asks := by
  apply Leads.trans (leads_endOutput he)
  intro other hc ha
  apply Leads.step .discard
  refine Leads.refl ?_ ha
  show other.channel.discard = _
  rw [hc]
  rfl

theorem leads_proceed (l : Link) (he : e.channel = l.channel) : e.Leads l.proceed.channel e.asks := by
  unfold Link.proceed
  dsimp only
  split
  . apply Leads.trans (leads_deliver _ he)
    intro other hc ha
    rw [← ha]
    exact leads_endOutput hc
  . exact leads_deliver _ he

theorem leads_attend (l : Link) (deadline : Duration) (isServed : Channel → Bool) (steps : Nat)
    (he : e.channel = l.channel) : e.Leads (l.attend deadline isServed steps).channel e.asks := by
  induction steps generalizing e l with
  | zero => exact Leads.refl he rfl
  | succ steps ih =>
    have hp : ∀ m : Link, e.Leads m.channel e.asks →
        e.Leads (m.proceed.attend deadline isServed steps).channel e.asks := by
      intro m hm
      apply hm.trans
      intro other hc ha
      apply Leads.trans (leads_proceed m hc)
      intro another hd hb
      rw [← ha, ← hb]
      exact ih _ hd
    have hs : ∀ m : Link, (m.skipTo deadline).channel = m.channel := by
      intro m
      unfold Link.skipTo
      split <;> rfl
    have hf := leads_flush l he
    unfold Link.attend
    dsimp only
    split
    . split
      . exact hf
      . rw [hs]
        exact hf
    . split
      . split
        . exact hp _ hf
        . exact hf
      . split
        . exact hp _ hf
        . rw [hs]
          exact hf

theorem leads_await (l : Link) (requests : List Rpc.Request) (deadline : Duration)
    (he : e.channel = l.channel) : e.Leads (l.await requests deadline).channel e.asks := by
  unfold Link.await
  split
  . exact Leads.refl he rfl
  . exact leads_attend l _ _ _ he

/-! ## Requests -/

/-- The request was sent, or it is known that it could not be. -/
def Sends (limit : Duration) (cancels : Bool) (a : Asking) : Except BridgeError Rpc.Request → Prop
  | .ok request => a = ⟨request, limit, cancels, .waiting⟩
  | .error error => a.progress = .done (.error error)

theorem leads_ask (method : String) (params : Option Json) (limit : Duration) (cancels : Bool)
    (he : e.channel = c) :
    ∃ a, e.Leads (c.ask method params).2 (e.asks ++ [a]) ∧
      Sends limit cancels a (c.ask method params).1 := by
  subst he
  let request := Rpc.Request.new e.channel.nextId method params
  let n := e.asks.length
  let moves : List Move := [.draw method params limit cancels, .advance n, .advance n, .advance n]
  cases hl : e.channel.isAlive with
  | true =>
    refine ⟨⟨request, limit, cancels, .waiting⟩, ⟨moves, ?_⟩, ?_⟩
    . rw [Channel.ask_of_isAlive hl]
      simp [moves, n, playAll, play, draw, follow, advance, hl, Channel.draw, Channel.enroll]
      exact ⟨rfl, rfl⟩
    . rw [Channel.ask_of_isAlive hl]
      rfl
  | false =>
    refine ⟨⟨request, limit, cancels, .done (.error .closed)⟩, ⟨moves, ?_⟩, ?_⟩
    . rw [Channel.ask_of_not_isAlive hl]
      simp [moves, n, playAll, play, draw, follow, advance, hl, Channel.draw, Channel.enroll]
      exact ⟨rfl, rfl⟩
    . rw [Channel.ask_of_not_isAlive hl]
      rfl

theorem leads_collect (hc : e.channel.collect request = (some outcome, c))
    (ha : e.asks = before ++ ⟨request, limit, cancels, .waiting⟩ :: rest) :
    e.Leads c (before ++ ⟨request, limit, cancels, .done outcome⟩ :: rest) := by
  refine ⟨[.advance before.length], ?_⟩
  simp [playAll, play, follow, advance, ha, hc]

theorem leads_expire (ha : e.asks = before ++ ⟨request, limit, cancels, .waiting⟩ :: rest) :
    e.Leads (e.channel.expire request limit cancels).2
      (before ++ ⟨request, limit, cancels, .done (.error (.timeout request limit))⟩ :: rest) := by
  let n := before.length
  -- The last moves do nothing if the server is not to be told, or cannot be told.
  refine ⟨[.lapse n, .advance n, .advance n, .advance n], ?_⟩
  cases cancels with
  | false =>
    simp [playAll, play, follow, lapse, advance, ha, n, Asking.timeout, Channel.expire]
  | true =>
    have hw : (e.channel.withdraw request.id).isAlive = e.channel.isAlive := rfl
    cases hl : e.channel.isAlive with
    | true =>
      simp [playAll, play, follow, lapse, advance, ha, n, hl, hw, Asking.timeout, Channel.expire, Channel.send,
        Except.toOption]
      rfl
    | false =>
      simp [playAll, play, follow, lapse, advance, ha, n, hl, hw, Asking.timeout, Channel.expire, Channel.send,
        Except.toOption]

theorem leads_settle (l : Link) (he : e.channel = l.channel)
    (ha : e.asks = before ++ ⟨request, limit, cancels, .waiting⟩ :: rest) :
    e.Leads (l.settle request limit cancels).2.channel
      (before ++ ⟨request, limit, cancels, .done (l.settle request limit cancels).1⟩ :: rest) := by
  unfold Link.settle
  split
  . next outcome channel hc =>
    rw [← he] at hc
    exact leads_collect hc ha
  . next channel hc =>
    rw [Channel.eq_of_collect hc, ← he]
    exact leads_expire ha

theorem leads_settleAll (l : Link) (sent : List (Except BridgeError Rpc.Request)) (he : e.channel = l.channel)
    (ha : e.asks = before ++ rest) (hs : List.Forall₂ (Sends limit cancels) rest sent) :
    ∃ settled, e.Leads (l.settleAll limit cancels sent).2.channel (before ++ settled) ∧
      settled.map Asking.progress = (l.settleAll limit cancels sent).1.map .done := by
  induction hs generalizing e l before with
  | nil => exact ⟨[], Leads.refl he ha, rfl⟩
  | @cons a outcome rest sent hs _ ih =>
    cases outcome with
    | ok request =>
      subst hs
      rcases leads_settle l he ha with ⟨moves, hc, hb⟩
      rw [List.append_cons] at hb
      rcases ih _ hc hb with ⟨settled, hl, hr⟩
      rw [← List.append_cons] at hl
      exact ⟨_, hl.after moves, congrArg (List.cons _) hr⟩
    | error error =>
      rw [List.append_cons] at ha
      rcases ih l he ha with ⟨settled, hl, hr⟩
      rw [← List.append_cons] at hl
      refine ⟨a :: settled, hl, ?_⟩
      rw [List.map_cons, hr, hs]
      rfl

theorem leads_sendAll (l : Link) (asked : List (String × Option Json)) (limit : Duration) (cancels : Bool)
    (he : e.channel = l.channel) :
    ∃ asks, e.Leads (l.sendAll asked).2.channel (e.asks ++ asks) ∧
      List.Forall₂ (Sends limit cancels) asks (l.sendAll asked).1 := by
  induction asked generalizing e l with
  | nil => exact ⟨[], Leads.refl he (by simp), .nil⟩
  | cons head rest ih =>
    rcases head with ⟨method, params⟩
    rcases leads_ask method params limit cancels he with ⟨a, ⟨moves, hc, ha⟩, hs⟩
    rcases ih { l with channel := (l.channel.ask method params).2 } hc with ⟨asks, hl, hr⟩
    rw [ha, List.append_assoc] at hl
    exact ⟨a :: asks, hl.after moves, .cons hs hr⟩

theorem leads_askAll (l : Link) (asked : List (String × Option Json)) (limit : Duration) (cancels : Bool)
    (he : e.channel = l.channel) :
    ∃ settled, e.Leads (l.askAll asked limit cancels).2.channel (e.asks ++ settled) ∧
      settled.map Asking.progress = (l.askAll asked limit cancels).1.map .done := by
  rcases leads_sendAll l asked limit cancels he with ⟨asks, ⟨moves, hc, ha⟩, hs⟩
  have hw : ∀ m : Link, (e.playAll moves).Leads m.channel (e.asks ++ asks) →
      ∃ settled, e.Leads (m.settleAll limit cancels (l.sendAll asked).1).2.channel (e.asks ++ settled) ∧
        settled.map Asking.progress = (m.settleAll limit cancels (l.sendAll asked).1).1.map .done := by
    intro m ⟨others, hd, hb⟩
    rcases leads_settleAll m _ hd hb hs with ⟨settled, hl, hr⟩
    exact ⟨settled, (hl.after others).after moves, hr⟩
  unfold Link.askAll
  dsimp only
  split
  . exact hw _ (Leads.refl hc ha)
  . apply hw
    rw [← ha]
    exact leads_await _ _ _ hc

theorem leads_askOne (l : Link) (method : String) (params : Option Json) (limit : Duration) (cancels : Bool)
    (he : e.channel = l.channel) :
    ∃ a, e.Leads (l.ask method params limit cancels).2.channel (e.asks ++ [a]) ∧
      a.progress = .done (l.ask method params limit cancels).1 := by
  rcases leads_askAll l [(method, params)] limit cancels he with ⟨settled, hl, hr⟩
  have ho : (l.askAll [(method, params)] limit cancels).1 =
      [(l.ask method params limit cancels).1] := rfl
  have hc : (l.ask method params limit cancels).2 =
      (l.askAll [(method, params)] limit cancels).2 := rfl
  rw [ho] at hr
  rcases List.map_eq_singleton_iff.mp hr with ⟨a, hs, hp⟩
  subst hs
  rw [hc]
  exact ⟨a, hl, hp⟩

theorem leads_tell (l : Link) (method : String) (params : Option Json) (he : e.channel = l.channel) :
    e.Leads (l.tell method params).2.channel e.asks := by
  unfold Link.tell Channel.tell Channel.send
  split
  . next channel hs =>
    split at hs
    . cases hs
      apply Leads.step (.tell (.new method params))
      apply Leads.refl _ rfl
      show e.channel.queue _ = _
      rw [he]
      rfl
    . cases hs
  . exact Leads.refl he rfl

/-- Whatever is said on a link is said by moves, after which no request is left halfway. -/
theorem leads_hold (l : Link) (d : Dialogue α) (he : e.channel = l.channel) :
    ∃ settled, e.Leads (l.hold d).2.channel (e.asks ++ settled) ∧ ∀ a ∈ settled, a.progress.isDone := by
  induction d generalizing e l with
  | done result => exact ⟨[], Leads.refl he (List.append_nil _).symm, by simp⟩
  | ask method params limit cancels next ih =>
    rcases leads_askOne l method params limit cancels he with ⟨a, ⟨moves, hc, ha⟩, hp⟩
    rcases ih _ _ hc with ⟨settled, hl, hd⟩
    rw [ha, List.append_assoc] at hl
    refine ⟨a :: settled, hl.after moves, ?_⟩
    intro b hb
    rcases List.mem_cons.mp hb with hb | hb
    . rw [hb, hp]
      rfl
    . exact hd b hb
  | tell method params next ih =>
    rcases leads_tell l method params he with ⟨moves, hc, ha⟩
    rcases ih _ _ hc with ⟨settled, hl, hd⟩
    rw [ha] at hl
    exact ⟨settled, hl.after moves, hd⟩
  | pause time next ih =>
    rcases leads_attend l (l.now + time) (fun _ => false) Session.patience he with ⟨moves, hc, ha⟩
    rcases ih _ _ hc with ⟨settled, hl, hd⟩
    rw [ha] at hl
    exact ⟨settled, hl.after moves, hd⟩

/-- The channel of a link is that of an exchange, and nobody waits on it between two dialogues. -/
theorem exists_correlated_hold (program : Program) (reaction : Reaction) (d : Dialogue α) :
    ∃ e : Exchange, e.channel = ((Link.start program reaction).hold d).2.channel ∧
      (e.asks.length ≤ UInt64.size → e.Correlated ∧ e.channel.pending = []) := by
  have he : start.channel = (Link.start program reaction).channel := rfl
  rcases leads_hold _ d he with ⟨settled, ⟨moves, hc, ha⟩, hd⟩
  refine ⟨start.playAll moves, hc, ?_⟩
  intro hb
  have hs := sound_playAll sound_start moves hb
  refine ⟨hs.correlated hb, ?_⟩
  apply List.eq_nil_iff_forall_not_mem.mpr
  intro id hp
  rcases hs.pending id hp with ⟨a, hm, _, hn⟩
  rw [ha] at hm
  have := hd a hm
  cases hq : a.progress <;> simp_all [Progress.isEnrolled, Progress.isDone]

end Exchange

end Turnstile
