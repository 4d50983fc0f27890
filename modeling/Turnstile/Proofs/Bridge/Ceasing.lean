import Turnstile.Proofs.Bridge.Correlation
import Turnstile.Proofs.Table

/-!
This module contains what happens to requests after the channel has ceased: it is not alive, and nobody has an
entry but requests that have yet to find this out. How each request ends is settled by then, and its own next
steps are enough to bring it there.
-/

namespace Turnstile

namespace Progress

/-- Is the request between its registration and its end for want of a channel? -/
def isEntering : Progress → Bool
  | registered | refused => true
  | _ => false

/-- Has the request passed the channel without an end so far, so that it will look for a response? -/
def isCommitted : Progress → Bool
  | cleared | waiting => true
  | _ => false

/-- Has the request nothing to send, unless the channel is found to be alive? -/
def isBarred : Progress → Bool
  | drawn | registered | refused | done _ => true
  | _ => false

/-- How many steps of its own the request has before it at most, if the channel is not alive. -/
def span : Progress → Nat
  | drawn => 3
  | registered | cleared | expired => 2
  | refused | waiting | leaving | notifying => 1
  | done _ => 0

theorem isEntering_eq_false {p : Progress} (h : p.isCommitted) : p.isEntering = false := by
  cases p <;> trivial

theorem isCommitted_eq_false {p : Progress} (h : p.isBarred) : p.isCommitted = false := by
  cases p <;> trivial

end Progress

namespace Channel

/-- What a request will find that has no entry. -/
def verdict (c : Channel) (request : Rpc.Request) : Except BridgeError Json :=
  match c.answers.lookup request.id with
  | some r => outcome request r
  | none => .error .closed

/-- How a request can end, if the channel is not alive and a request that waits has no entry. -/
def ends (c : Channel) (a : Asking) : List (Except BridgeError Json) :=
  match a.progress with
  | .drawn | .registered | .refused => [.error .closed]
  | .cleared => [.error .closed, c.verdict a.request]
  | .waiting => [c.verdict a.request]
  | .expired | .leaving | .notifying => [.error (.timeout a.request a.limit)]
  | .done outcome => [outcome]

theorem collect_of_not_mem {c : Channel} {request : Rpc.Request} (h : request.id ∉ c.pending) :
    (c.collect request).1 = some (c.verdict request) := by
  unfold collect waiting verdict
  cases c.answers.lookup request.id with
  | some _ => rfl
  | none =>
    have : c.pending.contains request.id = false := by simpa using h
    rw [this]
    rfl

theorem isAlive_collect {c : Channel} (h : c.collect request = (result, c')) : c'.isAlive = c.isAlive := by
  cases result with
  | none => rw [eq_of_collect h]
  | some outcome =>
    rcases of_collect h with ⟨_, hc, _⟩ | ⟨_, _, _, hc⟩
    . rw [hc]
    . rw [hc]

theorem pending_collect {c : Channel} (h : c.collect request = (result, c')) : c'.pending = c.pending := by
  cases result with
  | none => rw [eq_of_collect h]
  | some outcome =>
    rcases of_collect h with ⟨_, hc, _⟩ | ⟨_, _, _, hc⟩
    . rw [hc]
    . rw [hc]

/-- All that a line can do to a channel. -/
theorem of_deliver (c : Channel) (text : String) :
    (∃ notifications outbound, c.deliver text = { c with notifications, outbound }) ∨
      ∃ id r, Rpc.Incoming.ofLine text = .ok (.response r) ∧ r.id? = some id ∧ id ∈ c.pending ∧
        c.deliver text = { c.withdraw id with answers := (id, r) :: c.answers } := by
  rw [deliver_eq]
  split
  . next message hm =>
    cases message with
    | response r =>
      by_cases hp : ∃ id, r.id? = some id ∧ id ∈ c.pending
      . rcases hp with ⟨id, hi, hp⟩
        exact .inr ⟨id, r, ofLine_of_hears hm, hi, hp, answer_of_mem hi hp⟩
      . exact .inl ⟨_, _, answer_of_not_mem fun id hi hq => hp ⟨id, hi, hq⟩⟩
    | request id method _ => exact .inl ⟨_, _, rfl⟩
    | notification n => exact .inl ⟨_, _, rfl⟩
  . exact .inl ⟨_, _, rfl⟩

theorem isAlive_deliver (c : Channel) (text : String) : (c.deliver text).isAlive = c.isAlive := by
  rcases of_deliver c text with ⟨_, _, hd⟩ | ⟨_, _, _, _, _, hd⟩
  . rw [hd]
  . rw [hd]
    rfl

theorem mem_pending_of_deliver {c : Channel} {id : UInt64} (h : id ∈ (c.deliver text).pending) :
    id ∈ c.pending := by
  rcases of_deliver c text with ⟨_, _, hd⟩ | ⟨_, _, _, _, _, hd⟩
  . rwa [hd] at h
  . rw [hd] at h
    exact (List.mem_filter.mp h).1

theorem lookup_deliver {c : Channel} {id : UInt64} (h : id ∉ c.pending) :
    (c.deliver text).answers.lookup id = c.answers.lookup id := by
  rcases of_deliver c text with ⟨_, _, hd⟩ | ⟨other, r, _, _, hp, hd⟩
  . rw [hd]
  . have hn : id ≠ other := by
      intro he
      subst he
      exact h hp
    rw [hd, List.lookup_cons, beq_false_of_ne hn]

end Channel

namespace Exchange

variable {e : Exchange} {a : Asking} {n : Nat}

/-! ## A channel that is not alive -/

theorem isAlive_advance (e : Exchange) (n : Nat) (a : Asking) :
    (e.advance n a).channel.isAlive = e.channel.isAlive := by
  unfold advance
  split
  any_goals rfl
  split
  . next hc => exact Channel.isAlive_collect hc
  . rfl

theorem isAlive_of_play (h : (e.play move).channel.isAlive) : e.channel.isAlive := by
  cases move with
  | draw | tell | drain | release | mute | discard => exact h
  | hush => cases h
  | advance n =>
    unfold play follow at h
    dsimp only at h
    split at h
    . rwa [isAlive_advance] at h
    . exact h
  | refuse n =>
    unfold play follow at h
    dsimp only at h
    split at h
    . unfold refuse at h
      split at h <;> exact h
    . exact h
  | lapse n =>
    unfold play follow at h
    dsimp only at h
    split at h
    . unfold lapse at h
      split at h <;> exact h
    . exact h
  | deliver text =>
    have hd : (e.deliver text).channel.isAlive := h
    rwa [channel_deliver, Channel.isAlive_deliver] at hd
  | take =>
    unfold play take at h
    dsimp only at h
    split at h <;> exact h

/-- All requests can be told apart. -/
structure Counted (e : Exchange) : Prop where
  sound : e.Sound
  bounded : e.asks.length ≤ UInt64.size

/-- The channel is not alive, and who has an entry does not know that yet. -/
structure Ceased (e : Exchange) : Prop where
  isAlive : e.channel.isAlive = false
  pending : ∀ id ∈ e.channel.pending, ∃ a ∈ e.asks, a.id = id ∧ a.progress.isEntering

theorem ceased_of_release (h : e.channel.isAlive = false) : (e.play .release).Ceased where
  isAlive := h
  pending _ hm := by cases hm

namespace Ceased

theorem pending_put {ids : List UInt64} (h : e.Ceased) (ha : e.asks[n]? = some a)
    (hp : a.progress.isEntering → a.id ∈ ids → progress.isEntering)
    (hs : ∀ id ∈ ids, id ∈ e.channel.pending) :
    ∀ id ∈ ids, ∃ b ∈ (e.put n a progress).asks, b.id = id ∧ b.progress.isEntering := by
  intro id hm
  rcases h.pending id (hs id hm) with ⟨b, hb, hi, hq⟩
  rcases eq_or_mem_put ha hb with hc | hc
  . subst hc
    subst hi
    exact ⟨_, mem_put ha, rfl, hp hq hm⟩
  . exact ⟨b, hc, hi, hq⟩

theorem pending_advance (h : e.Ceased) (ha : e.asks[n]? = some a) :
    ∀ id ∈ (e.advance n a).channel.pending,
      ∃ b ∈ (e.advance n a).asks, b.id = id ∧ b.progress.isEntering := by
  have hw : ∀ id ∈ (e.channel.withdraw a.id).pending, id ∈ e.channel.pending := by
    intro id hm
    exact (List.mem_filter.mp hm).1
  have hn : a.id ∉ (e.channel.withdraw a.id).pending := Channel.not_mem_withdraw _ _
  unfold advance
  split
  . next hp =>
    intro id hm
    rcases List.mem_cons.mp hm with hm | hm
    . exact ⟨_, mem_put ha, hm.symm, rfl⟩
    . exact h.pending_put ha (by simp [hp, Progress.isEntering]) (fun _ hm => hm) id hm
  . rw [h.isAlive]
    exact h.pending_put ha (fun _ _ => rfl) fun _ hm => hm
  . next hp => exact h.pending_put ha (by simp [hp, Progress.isEntering]) fun _ hm => hm
  . exact h.pending_put ha (fun _ hm => absurd hm hn) hw
  . next hp =>
    split
    . next hc =>
      have he := Channel.pending_collect hc
      intro id hm
      rw [channel_on, he] at hm
      exact h.pending_put ha (by simp [hp, Progress.isEntering]) (fun _ hm => hm) id hm
    . exact h.pending
  . exact h.pending_put ha (fun _ hm => absurd hm hn) hw
  . next hp => exact h.pending_put ha (by simp [hp, Progress.isEntering]) fun _ hm => hm
  . next hp => exact h.pending_put ha (by simp [hp, Progress.isEntering]) fun _ hm => hm
  . exact h.pending

theorem pending_play (h : e.Ceased) (move : Move) :
    ∀ id ∈ (e.play move).channel.pending,
      ∃ b ∈ (e.play move).asks, b.id = id ∧ b.progress.isEntering := by
  cases move with
  | draw method params limit cancels =>
    intro id hm
    rcases h.pending id hm with ⟨b, hb, hi⟩
    exact ⟨b, List.mem_append_left _ hb, hi⟩
  | advance n =>
    unfold play follow
    dsimp only
    split
    . next a ha => exact h.pending_advance ha
    . exact h.pending
  | refuse n =>
    unfold play follow
    dsimp only
    split
    . next a ha =>
      unfold refuse
      split
      . exact h.pending_put ha (fun _ _ => rfl) fun _ hm => hm
      . next hp => exact h.pending_put ha (by simp [hp, Progress.isEntering]) fun _ hm => hm
      . exact h.pending
    . exact h.pending
  | lapse n =>
    unfold play follow
    dsimp only
    split
    . next a ha =>
      unfold lapse
      split
      . next hp => exact h.pending_put ha (by simp [hp, Progress.isEntering]) fun _ hm => hm
      . exact h.pending
    . exact h.pending
  | deliver text =>
    intro id hm
    have hd : id ∈ (e.deliver text).channel.pending := hm
    rw [channel_deliver] at hd
    rcases h.pending id (Channel.mem_pending_of_deliver hd) with ⟨b, hb, hi⟩
    refine ⟨b, ?_, hi⟩
    show b ∈ (e.deliver text).asks
    rwa [asks_deliver]
  | take =>
    unfold play take
    dsimp only
    split
    . exact h.pending
    . exact h.pending
  | tell | drain | hush | mute | discard => exact h.pending
  | release =>
    intro id hm
    cases hm

theorem play (h : e.Ceased) (move : Move) : (e.play move).Ceased where
  isAlive := by
    apply Bool.eq_false_iff.mpr
    intro hl
    cases h.isAlive.symm.trans (isAlive_of_play hl)
  pending := h.pending_play move

theorem not_mem_pending (h : e.Ceased) (hk : e.Counted) (ha : a ∈ e.asks)
    (hp : a.progress.isEntering = false) : a.id ∉ e.channel.pending := by
  intro hm
  rcases h.pending _ hm with ⟨b, hc, hi, he⟩
  rw [hk.sound.eq_of_id_eq hk.bounded hc ha hi, hp] at he
  cases he

end Ceased

/-! ## Where outcomes come from -/

/-- The outcome is that of a response to the request, or the request has none in time or at all. -/
def Explains (e : Exchange) (a : Asking) (outcome : Except BridgeError Json) : Prop :=
  (∃ position r, e.Hears position a.id r ∧ outcome = Channel.outcome a.request r)
    ∨ outcome = .error (.timeout a.request a.limit)
    ∨ outcome = .error .closed

structure Reasoned (e : Exchange) : Prop where
  answers : ∀ id r, (id, r) ∈ e.channel.answers → ∃ position, e.Hears position id r
  outcomes : ∀ a ∈ e.asks, ∀ outcome, a.progress = .done outcome → e.Explains a outcome

theorem reasoned_start : start.Reasoned where
  answers _ _ hm := by cases hm
  outcomes _ ha := by cases ha

namespace Reasoned

theorem put (h : e.Reasoned) (hp : ∀ outcome, progress = .done outcome → e.Explains a outcome) :
    (e.put n a progress).Reasoned where
  answers := h.answers
  outcomes b hb outcome hd := by
    rcases mem_of_mem_put hb with hc | hc
    . subst hc
      exact hp outcome hd
    . exact h.outcomes b hc outcome hd

theorem put_timeout (h : e.Reasoned) : (e.put n a a.timeout).Reasoned := by
  apply h.put
  intro outcome hd
  cases hd
  exact .inr (.inl rfl)

theorem on (h : e.Reasoned) (hc : ∀ entry ∈ c.answers, entry ∈ e.channel.answers) : (e.on c).Reasoned where
  answers id r hm := h.answers id r (hc _ hm)
  outcomes := h.outcomes

theorem write (h : e.Reasoned) (letter : Letter) : (e.write letter).Reasoned where
  answers := h.answers
  outcomes := h.outcomes

theorem advance (h : e.Reasoned) : (e.advance n a).Reasoned := by
  have hd : ∀ progress : Progress, progress.isDone = false →
      ∀ outcome, progress = .done outcome → e.Explains a outcome := by
    intro progress hn outcome hp
    subst hp
    cases hn
  unfold Exchange.advance
  split
  . exact (h.put (hd _ rfl)).on fun _ hm => hm
  . apply h.put
    split <;> exact hd _ rfl
  . exact (h.put (hd _ rfl)).write _
  . have hc : ∀ outcome, Progress.done (.error .closed) = .done outcome → e.Explains a outcome := by
      intro outcome hp
      cases hp
      exact .inr (.inr rfl)
    exact (h.put hc).on fun _ hm => hm
  . split
    . next outcome channel hc =>
      rcases Channel.of_collect hc with ⟨ho, hc, _⟩ | ⟨r, hr, ho, hc⟩
      . subst hc
        apply (h.put _).on fun _ hm => hm
        intro other hp
        cases hp
        exact .inr (.inr ho)
      . subst hc
        apply (h.put _).on fun _ hm => (List.mem_filter.mp hm).1
        intro other hp
        cases hp
        rcases h.answers _ r hr with ⟨position, hl⟩
        exact .inl ⟨position, r, hl, ho⟩
    . exact h
  . split
    . exact (h.put (hd _ rfl)).on fun _ hm => hm
    . exact h.put_timeout.on fun _ hm => hm
  . split
    . exact h.put (hd _ rfl)
    . exact h.put_timeout
  . exact h.put_timeout.write _
  . exact h

theorem deliver (h : e.Reasoned) (text : String) : (e.deliver text).Reasoned := by
  have hh : (e.deliver text).heard = (e.listen text).heard := by
    unfold Exchange.deliver
    split
    . dsimp only
      split <;> rfl
    . rfl
  have hl : ∀ {position id r}, (e.listen text).Hears position id r → (e.deliver text).Hears position id r := by
    intro position id r hl
    unfold Hears
    rw [hh]
    exact hl
  constructor
  . intro id r hm
    rw [channel_deliver] at hm
    rcases Channel.of_deliver e.channel text with ⟨_, _, hd⟩ | ⟨other, answer, ht, hi, _, hd⟩
    . rw [hd] at hm
      rcases h.answers id r hm with ⟨position, hr⟩
      exact ⟨position, hl (hr.listen text)⟩
    . rw [hd] at hm
      rcases List.mem_cons.mp hm with he | hm
      . cases he
        exact ⟨e.heard.length, hl ⟨text, List.getElem?_concat_length, ht, hi⟩⟩
      . rcases h.answers id r hm with ⟨position, hr⟩
        exact ⟨position, hl (hr.listen text)⟩
  . intro a ha outcome hd
    rw [asks_deliver] at ha
    rcases h.outcomes a ha outcome hd with ⟨position, r, hr, ho⟩ | ho
    . exact .inl ⟨position, r, hl (hr.listen text), ho⟩
    . exact .inr ho

theorem play (h : e.Reasoned) (move : Move) : (e.play move).Reasoned := by
  have hf : ∀ {n step}, (∀ a, e.asks[n]? = some a → (step n a).Reasoned) → (e.follow n step).Reasoned := by
    intro n step hs
    unfold follow
    split
    . next a ha => exact hs a ha
    . exact h
  cases move with
  | draw method params limit cancels =>
    refine ⟨h.answers, ?_⟩
    intro a ha outcome hd
    rcases List.mem_append.mp ha with ha | ha
    . exact h.outcomes a ha outcome hd
    . cases List.mem_singleton.mp ha
      cases hd
  | advance n => exact hf fun _ _ => h.advance
  | refuse n =>
    apply hf
    intro a _
    unfold Exchange.refuse
    split
    . apply h.put
      intro outcome hd
      cases hd
    . exact h.put_timeout
    . exact h
  | lapse n =>
    apply hf
    intro a _
    unfold Exchange.lapse
    split
    . apply h.put
      intro outcome hd
      cases hd
    . exact h
  | tell notification => exact h.write _
  | deliver text => exact h.deliver text
  | take =>
    show e.take.Reasoned
    unfold Exchange.take
    split
    . exact h
    . exact ⟨h.answers, h.outcomes⟩
  | drain | hush | release | mute | discard => exact h.on fun _ hm => hm

end Reasoned

/-! ## How requests end -/

namespace Move

/-- The request that the move is a step of. -/
def target? : Move → Option Nat
  | advance n | refuse n | lapse n => some n
  | _ => none

def draws : Move → Bool
  | draw .. => true
  | _ => false

/-- Is the move the next step of the request? -/
def advances (n : Nat) : Move → Bool
  | advance m => m == n
  | _ => false

end Move

theorem length_play (e : Exchange) (h : move.draws = false) : (e.play move).asks.length = e.asks.length := by
  have hl : ∀ {asks : List Asking}, asks.map Asking.request = e.asks.map Asking.request →
      asks.length = e.asks.length := by
    intro asks hr
    simpa using congrArg List.length hr
  cases move with
  | draw => cases h
  | advance n => exact hl (requests_follow fun _ => requests_advance)
  | refuse n => exact hl (requests_follow fun _ => requests_refuse)
  | lapse n => exact hl (requests_follow fun _ => requests_lapse)
  | deliver text => exact congrArg List.length (asks_deliver e text)
  | take => exact congrArg List.length (asks_take e)
  | tell | drain | hush | release | mute | discard => rfl

theorem asks_advance (e : Exchange) (n : Nat) (a : Asking) :
    (e.advance n a).asks = e.asks ∨ ∃ progress, (e.advance n a).asks = e.asks.set n { a with progress } := by
  unfold advance
  split
  any_goals exact .inr ⟨_, rfl⟩
  . split
    . exact .inr ⟨_, rfl⟩
    . exact .inl rfl
  . exact .inl rfl

theorem getElem?_follow (hn : m ≠ n) (hs : ∀ b, (step m b).asks = e.asks ∨
    ∃ progress, (step m b).asks = e.asks.set m { b with progress }) :
    (e.follow m step).asks[n]? = e.asks[n]? := by
  unfold follow
  split
  . next b _ =>
    rcases hs b with he | ⟨_, he⟩
    . rw [he]
    . rw [he, List.getElem?_set_ne hn]
  . rfl

theorem getElem?_play (hn : move.target? ≠ some n) (ha : e.asks[n]? = some a) :
    (e.play move).asks[n]? = some a := by
  rw [← ha]
  cases move with
  | draw method params limit cancels =>
    exact List.getElem?_append_left (List.getElem?_eq_some_iff.mp ha).1
  | advance m => exact getElem?_follow (fun hm => hn (congrArg some hm)) (asks_advance e m)
  | refuse m =>
    apply getElem?_follow fun hm => hn (congrArg some hm)
    intro b
    unfold refuse
    split
    . exact .inr ⟨_, rfl⟩
    . exact .inr ⟨_, rfl⟩
    . exact .inl rfl
  | lapse m =>
    apply getElem?_follow fun hm => hn (congrArg some hm)
    intro b
    unfold lapse
    split
    . exact .inr ⟨_, rfl⟩
    . exact .inl rfl
  | deliver text => exact congrArg (·[n]?) (asks_deliver e text)
  | take => exact congrArg (·[n]?) (asks_take e)
  | tell | drain | hush | release | mute | discard => rfl

theorem Counted.eq_of_getElem? (h : e.Counted) (ha : e.asks[n]? = some a) (hc : e.asks[m]? = some b)
    (hi : b.id = a.id) : m = n := by
  have hm : m < (e.asks.map Asking.id).length := by
    rw [List.length_map]
    exact (List.getElem?_eq_some_iff.mp hc).1
  apply (List.getElem?_inj hm (h.sound.ids_nodup h.bounded)).mp
  rw [List.getElem?_map, List.getElem?_map, ha, hc]
  exact congrArg some hi

theorem lookup_advance (h : e.Counted) (ha : e.asks[n]? = some a)
    (hc : e.asks[m]? = some b) (hn : m ≠ n) :
    (e.advance m b).channel.answers.lookup a.id = e.channel.answers.lookup a.id := by
  unfold advance
  split
  any_goals rfl
  . split
    . next hr =>
      rcases Channel.of_collect hr with ⟨_, hc, _⟩ | ⟨_, _, _, hc'⟩
      . subst hc
        rfl
      . subst hc'
        have hi : a.id ≠ b.id := fun hi => hn (h.eq_of_getElem? ha hc hi.symm)
        exact Table.lookup_filter (p := fun id => decide (id ≠ b.id)) (by simpa using hi) _
    . rfl

theorem lookup_play (h : e.Counted) (ha : e.asks[n]? = some a)
    (hn : move.target? ≠ some n) (hp : a.id ∉ e.channel.pending) :
    (e.play move).channel.answers.lookup a.id = e.channel.answers.lookup a.id := by
  cases move with
  | advance m =>
    unfold play follow
    dsimp only
    split
    . next b hc => exact lookup_advance h ha hc fun hm => hn (congrArg some hm)
    . rfl
  | refuse m =>
    unfold play follow refuse
    dsimp only
    split
    . split <;> rfl
    . rfl
  | lapse m =>
    unfold play follow lapse
    dsimp only
    split
    . split <;> rfl
    . rfl
  | deliver text =>
    show (e.deliver text).channel.answers.lookup a.id = _
    rw [channel_deliver, Channel.lookup_deliver hp]
  | take =>
    unfold play take
    dsimp only
    split <;> rfl
  | draw | tell | drain | hush | release | mute | discard => rfl

/-- What a request has become that has not more steps before it than that, and no other ends. -/
structure Nears (e e' : Exchange) (a a' : Asking) (steps : Nat) : Prop where
  request : a'.request = a.request
  limit : a'.limit = a.limit
  ends : e'.channel.ends a' ⊆ e.channel.ends a
  span : a'.progress.span ≤ steps
  isBarred : a.progress.isBarred → a'.progress.isBarred

theorem Nears.trans (h : Nears e e' a a' first) (hn : Nears e' e'' a' a'' second) : Nears e e'' a a'' second where
  request := hn.request.trans h.request
  limit := hn.limit.trans h.limit
  ends := List.Subset.trans hn.ends h.ends
  span := hn.span
  isBarred hb := hn.isBarred (h.isBarred hb)

def Tends (e e' : Exchange) (n : Nat) (a : Asking) (steps : Nat) : Prop :=
  ∃ a', e'.asks[n]? = some a' ∧ Nears e e' a a' steps

theorem tends_set (ha : e.asks[n]? = some a) (hn : e'.asks = e.asks.set n { a with progress })
    (he : e'.channel.ends { a with progress } ⊆ e.channel.ends a) (hs : progress.span ≤ steps)
    (hb : a.progress.isBarred → progress.isBarred) : Tends e e' n a steps := by
  refine ⟨{ a with progress }, ?_, rfl, rfl, he, hs, hb⟩
  rw [hn, List.getElem?_set_self (List.getElem?_eq_some_iff.mp ha).1]

theorem tends_same (he : e'.asks[n]? = some a)
    (hl : a.progress.isCommitted → e'.channel.answers.lookup a.id = e.channel.answers.lookup a.id)
    (hs : a.progress.span ≤ steps) : Tends e e' n a steps := by
  refine ⟨a, he, rfl, rfl, ?_, hs, fun hb => hb⟩
  have hv : a.progress.isCommitted → e'.channel.verdict a.request = e.channel.verdict a.request := by
    intro hc
    unfold Channel.verdict
    rw [hl hc]
  have he : e'.channel.ends a = e.channel.ends a := by
    unfold Channel.ends
    split
    any_goals rfl
    . next hp => rw [hv (by rw [hp]; rfl)]
    . next hp => rw [hv (by rw [hp]; rfl)]
  rw [he]
  exact List.Subset.refl _

namespace Ceased

theorem tends_advance (h : e.Ceased) (ha : e.asks[n]? = some a)
    (hn : a.progress.isCommitted → a.id ∉ e.channel.pending) :
    Tends e (e.advance n a) n a (a.progress.span - 1) := by
  unfold Exchange.advance
  split
  . next hp => apply tends_set ha rfl <;> simp [hp, Channel.ends, Progress.span, Progress.isBarred]
  . next hp =>
    rw [h.isAlive]
    apply tends_set ha rfl <;> simp [hp, Channel.ends, Progress.span, Progress.isBarred]
  . next hp =>
    have he : [e.channel.verdict a.request] ⊆ e.channel.ends a := by simp [Channel.ends, hp]
    refine tends_set ha rfl he ?_ ?_ <;> simp [hp, Progress.span, Progress.isBarred]
  . next hp => apply tends_set ha rfl <;> simp [hp, Channel.ends, Progress.span, Progress.isBarred]
  . next hp =>
    have hc := Channel.collect_of_not_mem (hn (by rw [hp]; rfl))
    split
    . next hr =>
      rw [hr] at hc
      cases hc
      apply tends_set ha rfl <;> simp [hp, Channel.ends, Progress.span, Progress.isBarred]
    . next hr =>
      rw [hr] at hc
      cases hc
  . next hp =>
    split
    . apply tends_set ha rfl <;> simp [hp, Channel.ends, Progress.span, Progress.isBarred]
    . apply tends_set ha rfl <;> simp [hp, Channel.ends, Progress.span, Progress.isBarred, Asking.timeout]
  . next hp =>
    rw [h.isAlive]
    apply tends_set ha rfl <;> simp [hp, Channel.ends, Progress.span, Progress.isBarred, Asking.timeout]
  . next hp => apply tends_set ha rfl <;> simp [hp, Channel.ends, Progress.span, Progress.isBarred, Asking.timeout]
  . next hp => exact tends_same ha (fun _ => rfl) (by simp [Progress.span, hp])

theorem tends_refuse (ha : e.asks[n]? = some a) : Tends e (e.refuse n a) n a a.progress.span := by
  unfold Exchange.refuse
  split
  . next hp => apply tends_set ha rfl <;> simp [hp, Channel.ends, Progress.span, Progress.isBarred]
  . next hp => apply tends_set ha rfl <;> simp [hp, Channel.ends, Progress.span, Progress.isBarred, Asking.timeout]
  . exact tends_same ha (fun _ => rfl) (Nat.le_refl _)

theorem tends_lapse (ha : e.asks[n]? = some a) (hn : a.progress.isCommitted → a.id ∉ e.channel.pending)
    (hl : (e.channel.collect a.request).1 = none) : Tends e (e.lapse n a) n a a.progress.span := by
  unfold Exchange.lapse
  split
  . next hp =>
    rw [Channel.collect_of_not_mem (hn (by rw [hp]; rfl))] at hl
    cases hl
  . exact tends_same ha (fun _ => rfl) (Nat.le_refl _)

/-- No move takes a request away from its end, and each step of its own takes it nearer. -/
theorem tends_play (h : e.Ceased) (hk : a.progress.isCommitted → e.Counted) (ha : e.asks[n]? = some a)
    (hl : move = .lapse n → (e.channel.collect a.request).1 = none) :
    Tends e (e.play move) n a (a.progress.span - (move.advances n).toNat) := by
  have hn : a.progress.isCommitted → a.id ∉ e.channel.pending := by
    intro hc
    exact h.not_mem_pending (hk hc) (List.mem_of_getElem? ha) (Progress.isEntering_eq_false hc)
  have hf : ∀ step, e.follow n step = step n a := by
    intro step
    unfold follow
    rw [ha]
  -- What is no step of the request leaves it as it is, and leaves it the answer that it has.
  by_cases ht : move.target? = some n
  . cases move with
    | advance m =>
      cases ht
      have := h.tends_advance ha hn
      simpa [Move.advances, Exchange.play, hf] using this
    | refuse m =>
      cases ht
      have := tends_refuse ha
      simpa [Move.advances, Exchange.play, hf] using this
    | lapse m =>
      cases ht
      have := tends_lapse ha hn (hl rfl)
      simpa [Move.advances, Exchange.play, hf] using this
    | _ => cases ht
  . have hm : move.advances n = false := by
      cases move with
      | advance m => simpa [Move.advances, Move.target?] using ht
      | _ => rfl
    rw [hm]
    exact tends_same (getElem?_play ht ha) (fun hc => lookup_play (hk hc) ha ht (hn hc)) (Nat.le_refl _)

end Ceased

/-! ## Requests that send nothing -/

/-- Nothing has been queued. -/
structure Quiet (e e' : Exchange) : Prop where
  sent : e'.sent = e.sent
  outbound : e'.channel.outbound = e.channel.outbound

theorem quiet_self (e : Exchange) : e.Quiet e :=
  ⟨rfl, rfl⟩

theorem quiet_advance (e : Exchange) (n : Nat) (h : a.progress.isBarred) : e.Quiet (e.advance n a) := by
  unfold advance
  split
  any_goals exact ⟨rfl, rfl⟩
  . next hp =>
    rw [hp] at h
    cases h
  . next hp =>
    rw [hp] at h
    cases h
  . next hp =>
    rw [hp] at h
    cases h

theorem quiet_refuse (e : Exchange) (n : Nat) : e.Quiet (e.play (.refuse n)) := by
  unfold play follow refuse
  dsimp only
  split
  . split <;> exact ⟨rfl, rfl⟩
  . exact e.quiet_self

theorem quiet_lapse (e : Exchange) (n : Nat) : e.Quiet (e.play (.lapse n)) := by
  unfold play follow lapse
  dsimp only
  split
  . split <;> exact ⟨rfl, rfl⟩
  . exact e.quiet_self

theorem done_play (ha : e.asks[n]? = some a) (hd : a.progress.isDone) (move : Move) :
    (e.play move).asks[n]? = some a := by
  have hf : ∀ step, e.follow n step = step n a := by
    intro step
    unfold follow
    rw [ha]
  rcases a with ⟨request, limit, cancels, progress⟩
  cases progress with
  | done outcome =>
    by_cases ht : move.target? = some n
    . cases move with
      | advance m | refuse m | lapse m =>
        cases ht
        unfold play
        dsimp only
        rw [hf]
        exact ha
      | _ => cases ht
    . exact getElem?_play ht ha
  | _ => cases hd

end Exchange

end Turnstile
