import Turnstile.Proofs.Bridge.Ceasing
import Turnstile.Proofs.Bridge.Liaison

/-!
This module contains the end of a liaison. Once the reader has come to its end or somebody has closed the channel,
nobody waits any more for a response that will not come, and nothing is sent any more.
-/

namespace Turnstile

namespace Liaison

variable {l : Liaison} {s : Step} {v : Visitor} {i : Nat}

/-! ## What a step does to the exchange -/

/-- Time is only over for a request that finds no response, and a request is only made by a visitor who then waits. -/
def Grants (l l' : Liaison) : Exchange.Move → Prop
  | .lapse n => l.exchange.findsNothing n
  | .draw .. => ∃ i v next, l.visitors[i]? = some v ∧
      l'.visitors = l.visitors.set i { v with stage := .asking l.exchange.asks.length next }
  | _ => True

/-- A step is no more than one move. -/
def Effect (l l' : Liaison) : Prop :=
  l'.exchange = l.exchange ∨ ∃ move, l'.exchange = l.exchange.play move ∧ l.Grants l' move

theorem effect_same {l' : Liaison} (h : l'.exchange = l.exchange) : Effect l l' :=
  .inl h

theorem effect_move {l' : Liaison} (move : Exchange.Move) (h : l'.exchange = l.exchange.play move)
    (hg : l.Grants l' move) : Effect l l' :=
  .inr ⟨move, h, hg⟩

theorem effect_attend (l : Liaison) (i : Nat) (hs : ∀ v, l.visitors[i]? = some v → Effect l (step v)) :
    Effect l (l.attend i step) := by
  unfold attend
  split
  . next v hv => exact hs v hv
  . exact effect_same rfl

theorem effect_proceed (hv : l.visitors[i]? = some v) : Effect l (l.proceed i v) := by
  unfold proceed
  split
  . exact effect_same rfl
  . exact effect_same rfl
  . split <;> exact effect_same rfl
  . split <;> exact effect_same rfl
  . next method params limit cancels next _ =>
    exact effect_move (.draw method params limit cancels) rfl ⟨i, v, next, hv, rfl⟩
  . next n next _ =>
    split
    . exact effect_same rfl
    . exact effect_move (.advance n) rfl trivial
  . split <;> exact effect_same rfl
  . next notification next _ => exact effect_move (.tell notification) rfl trivial
  . exact effect_same rfl

theorem effect_refuse (l : Liaison) (i : Nat) (v : Visitor) : Effect l (l.refuse i v) := by
  unfold refuse
  split
  . next n _ _ => exact effect_move (.refuse n) rfl trivial
  . exact effect_same rfl
  . exact effect_same rfl

theorem effect_lapse (l : Liaison) (v : Visitor) : Effect l (l.lapse v) := by
  unfold lapse
  split
  . next n _ _ =>
    split
    . next h => exact effect_move (.lapse n) rfl h
    . exact effect_same rfl
  . exact effect_same rfl

theorem effect_leave (l : Liaison) : Effect l l.leave := by
  unfold leave
  split
  . exact effect_move .mute rfl trivial
  . exact effect_move .hush rfl trivial
  . exact effect_move .release rfl trivial
  . exact effect_same rfl
  . exact effect_same rfl

theorem effect_close (l : Liaison) (m : Nat) (result : Except BridgeError Unit) : Effect l (l.close m result) := by
  unfold close
  split
  . exact effect_move .hush rfl trivial
  . exact effect_move .release rfl trivial
  . exact effect_same rfl
  . exact effect_same rfl
  . exact effect_same rfl
  . exact effect_same rfl

theorem effect_play (l : Liaison) (s : Step) : Effect l (l.play s) := by
  cases s with
  | visit errand => exact effect_same rfl
  | proceed i => exact effect_attend l i fun _ => effect_proceed
  | refuse i => exact effect_attend l i fun v _ => effect_refuse l i v
  | lapse i => exact effect_attend l i fun v _ => effect_lapse l v
  | deliver text =>
    show Effect l (l.deliver text)
    unfold deliver
    split
    . exact effect_move (.deliver text) rfl trivial
    . exact effect_same rfl
  | leave => exact effect_leave l
  | abort =>
    show Effect l l.abort
    unfold abort
    split
    . exact effect_move .mute rfl trivial
    . exact effect_same rfl
  | shutdown =>
    show Effect l l.shutdown
    unfold shutdown
    split <;> exact effect_same rfl
  | close m result => exact effect_close l m result
  | drain => exact effect_move .drain rfl trivial
  | write => exact effect_move .take rfl trivial
  | failWriting => exact effect_move .hush rfl trivial
  | discard => exact effect_move .discard rfl trivial
  | drop => exact effect_same rfl

theorem length_play (l : Liaison) (s : Step) : l.exchange.asks.length ≤ (l.play s).exchange.asks.length := by
  rcases effect_play l s with he | ⟨move, he, _⟩
  . exact Nat.le_of_eq (congrArg (·.asks.length) he.symm)
  . rw [he]
    exact Exchange.length_playAll l.exchange [move]

theorem length_playAll (l : Liaison) (steps : List Step) :
    l.exchange.asks.length ≤ (l.playAll steps).exchange.asks.length := by
  induction steps generalizing l with
  | nil => exact Nat.le_refl _
  | cons s rest ih => exact Nat.le_trans (length_play l s) (ih (l.play s))

/-! ## Who has closed the channel -/

/-- Whoever is about to clear the entries has seen to it that the channel is not alive. -/
structure Ordered (l : Liaison) : Prop where
  reading : l.reading = .hushed → l.exchange.channel.isAlive = false
  closings : .hushed ∈ l.closings → l.exchange.channel.isAlive = false
  ceased : l.isClosed → l.exchange.Ceased

theorem isClosed_iff :
    l.isClosed ↔ l.reading = .finished ∨ ∃ closing ∈ l.closings, closing.isClosed := by
  unfold isClosed
  rw [Bool.or_eq_true, decide_eq_true_iff, List.any_eq_true]

/-! ## Sides that visitors do not see -/

structure Aside (l l' : Liaison) : Prop where
  isShut : l'.isShut = l.isShut
  reading : l'.reading = l.reading
  closings : l'.closings = l.closings

theorem aside_attend (l : Liaison) (i : Nat) (hs : ∀ v, Aside l (step v)) : Aside l (l.attend i step) := by
  unfold attend
  split
  . exact hs _
  . exact ⟨rfl, rfl, rfl⟩

theorem aside_proceed (l : Liaison) (i : Nat) (v : Visitor) : Aside l (l.proceed i v) := by
  unfold proceed
  split
  any_goals exact ⟨rfl, rfl, rfl⟩
  all_goals split <;> exact ⟨rfl, rfl, rfl⟩

theorem aside_refuse (l : Liaison) (i : Nat) (v : Visitor) : Aside l (l.refuse i v) := by
  unfold refuse
  split <;> exact ⟨rfl, rfl, rfl⟩

theorem aside_lapse (l : Liaison) (v : Visitor) : Aside l (l.lapse v) := by
  unfold lapse
  split
  . split <;> exact ⟨rfl, rfl, rfl⟩
  . exact ⟨rfl, rfl, rfl⟩

theorem aside_play (l : Liaison) (h : s.closes = false) : Aside l (l.play s) := by
  cases s with
  | proceed i => exact aside_attend l i (aside_proceed l i)
  | refuse i => exact aside_attend l i (aside_refuse l i)
  | lapse i => exact aside_attend l i (aside_lapse l)
  | deliver text =>
    show Aside l (l.deliver text)
    unfold deliver
    split <;> exact ⟨rfl, rfl, rfl⟩
  | visit | drain | write | failWriting | discard => exact ⟨rfl, rfl, rfl⟩
  | leave | abort | shutdown | drop | close => cases h

theorem ordered_start : start.Ordered where
  reading h := by cases h
  closings h := by cases h
  ceased h := by cases h

namespace Ordered

theorem effect {l' : Liaison} (h : l.Ordered) (he : Effect l l') :
    (l.exchange.channel.isAlive = false → l'.exchange.channel.isAlive = false) ∧
      (l.isClosed → l'.exchange.Ceased) := by
  rcases he with he | ⟨move, he, _⟩
  . rw [he]
    exact ⟨fun hl => hl, h.ceased⟩
  . rw [he]
    refine ⟨?_, fun hc => (h.ceased hc).play move⟩
    intro hl
    apply Bool.eq_false_iff.mpr
    intro hp
    cases hl.symm.trans (Exchange.isAlive_of_play hp)

/-- Nobody has gone on who can close the channel. -/
theorem keep {l' : Liaison} (h : l.Ordered) (he : Effect l l') (ha : Aside l l') : l'.Ordered := by
  rcases h.effect he with ⟨hl, hd⟩
  constructor
  . intro hq
    exact hl (h.reading (ha.reading.symm.trans hq))
  . rw [ha.closings]
    exact fun hq => hl (h.closings hq)
  . unfold isClosed
    rw [ha.reading, ha.closings]
    exact hd

theorem read {l' : Liaison} (h : l.Ordered) (he : Effect l l') (hc : l'.closings = l.closings)
    (hr : l'.reading = .hushed → l'.exchange.channel.isAlive = false) (hf : l'.reading ≠ .finished) :
    l'.Ordered := by
  rcases h.effect he with ⟨hl, hd⟩
  refine ⟨hr, ?_, ?_⟩
  . rw [hc]
    exact fun hq => hl (h.closings hq)
  . intro hq
    rcases isClosed_iff.mp hq with hq | hq
    . exact absurd hq hf
    . rw [hc] at hq
      exact hd (isClosed_iff.mpr (.inr hq))

theorem leave (h : l.Ordered) : l.leave.Ordered := by
  unfold Liaison.leave
  split
  . exact h.read (effect_move .mute rfl trivial) rfl nofun nofun
  . exact h.read (effect_move .hush rfl trivial) rfl (fun _ => rfl) nofun
  . next hr =>
    have hc := Exchange.ceased_of_release (h.reading hr)
    exact ⟨nofun, fun _ => hc.isAlive, fun _ => hc⟩
  . exact h
  . exact h

/-- Somebody has gone on who closes the channel. -/
theorem advance {l' : Liaison} (h : l.Ordered) (he : Effect l l') (hr : l'.reading = l.reading)
    (hc : l'.closings = l.closings.set m closing) (hh : closing = .hushed → l'.exchange.channel.isAlive = false)
    (hd : closing.isClosed → l'.exchange.Ceased) : l'.Ordered := by
  rcases h.effect he with ⟨hl, hp⟩
  constructor
  . intro hq
    exact hl (h.reading (hr.symm.trans hq))
  . intro hq
    rw [hc] at hq
    rcases List.mem_or_eq_of_mem_set hq with hq | hq
    . exact hl (h.closings hq)
    . exact hh hq.symm
  . intro hq
    rcases isClosed_iff.mp hq with hq | ⟨other, hm, hq⟩
    . exact hp (isClosed_iff.mpr (.inl (hr.symm.trans hq)))
    . rw [hc] at hm
      rcases List.mem_or_eq_of_mem_set hm with hm | hm
      . exact hp (isClosed_iff.mpr (.inr ⟨other, hm, hq⟩))
      . subst hm
        exact hd hq

theorem close (h : l.Ordered) (m : Nat) (result : Except BridgeError Unit) : (l.close m result).Ordered := by
  unfold Liaison.close
  split
  . exact h.advance (effect_move .hush rfl trivial) rfl rfl (fun _ => rfl) nofun
  . next hm =>
    have hc := Exchange.ceased_of_release (h.closings (List.mem_of_getElem? hm))
    exact h.advance (effect_move .release rfl trivial) rfl rfl nofun fun _ => hc
  . next hm =>
    have hc : l.isClosed := isClosed_iff.mpr (.inr ⟨_, List.mem_of_getElem? hm, rfl⟩)
    exact h.advance (effect_same rfl) rfl rfl nofun fun _ => h.ceased hc
  . exact h
  . exact h
  . exact h

theorem join {l' : Liaison} (h : l.Ordered) (he : l'.exchange = l.exchange) (hr : l'.reading = l.reading)
    (hc : l'.closings = l.closings ++ [closing]) (hn : closing.isClosed = false) (hh : closing ≠ .hushed) :
    l'.Ordered := by
  constructor
  . rw [he, hr]
    exact h.reading
  . rw [he, hc]
    intro hq
    rcases List.mem_append.mp hq with hq | hq
    . exact h.closings hq
    . exact absurd (List.mem_singleton.mp hq).symm hh
  . intro hq
    rw [he]
    apply h.ceased
    unfold isClosed at hq ⊢
    rw [hr, hc] at hq
    simpa [hn] using hq

theorem play (h : l.Ordered) (s : Step) : (l.play s).Ordered := by
  cases hs : s.closes with
  | false => exact h.keep (effect_play l s) (aside_play l hs)
  | true =>
    cases s with
    | leave => exact h.leave
    | abort =>
      show l.abort.Ordered
      unfold abort
      split
      . exact h.read (effect_move .mute rfl trivial) rfl nofun nofun
      . exact h
    | shutdown =>
      show l.shutdown.Ordered
      unfold shutdown
      split
      . exact h.join rfl rfl rfl rfl nofun
      . exact h.join rfl rfl rfl rfl nofun
    | drop => exact h.join rfl rfl rfl rfl nofun
    | close m result => exact h.close m result
    | _ => cases hs

end Ordered

theorem ordered_playAll (h : l.Ordered) (steps : List Step) : (l.playAll steps).Ordered := by
  induction steps generalizing l with
  | nil => exact h
  | cons s rest ih => exact ih (h.play s)

theorem isClosed_close (h : l.isClosed) (m : Nat) (result : Except BridgeError Unit) :
    (l.close m result).isClosed := by
  have hs : ∀ closing e, (∀ other, l.closings[m]? = some other → other.isClosed → closing.isClosed) →
      { l with exchange := e, closings := l.closings.set m closing }.isClosed := by
    intro closing e hm
    apply isClosed_iff.mpr
    rcases isClosed_iff.mp h with hr | ⟨other, ho, hc⟩
    . exact .inl hr
    . rcases List.getElem?_of_mem ho with ⟨k, hk⟩
      have hl := (List.getElem?_eq_some_iff.mp hk).1
      by_cases he : m = k
      . subst he
        exact .inr ⟨closing, List.mem_set hl _, hm other hk hc⟩
      . refine .inr ⟨other, ?_, hc⟩
        apply List.mem_of_getElem?
        rw [← hk]
        exact List.getElem?_set_ne he
  unfold close
  split
  . next hm => exact hs .hushed _ fun other ho hc => by cases hm.symm.trans ho; exact hc
  . next hm => exact hs .closed _ fun _ _ _ => rfl
  . next hm => exact hs (.stopped result) l.exchange fun _ _ _ => rfl
  . exact h
  . exact h
  . exact h

theorem isClosed_play (h : l.isClosed) (s : Step) : (l.play s).isClosed := by
  have hj : ∀ shut closing, { l with isShut := shut, closings := l.closings ++ [closing] }.isClosed := by
    intro shut closing
    rcases isClosed_iff.mp h with hr | ⟨other, ho, hc⟩
    . exact isClosed_iff.mpr (.inl hr)
    . exact isClosed_iff.mpr (.inr ⟨other, List.mem_append_left _ ho, hc⟩)
  have hr : ∀ r e, l.reading ≠ .finished → { l with exchange := e, reading := r }.isClosed := by
    intro r e hf
    rcases isClosed_iff.mp h with hr | hc
    . exact absurd hr hf
    . exact isClosed_iff.mpr (.inr hc)
  cases hs : s.closes with
  | false =>
    have ha := aside_play l hs
    unfold isClosed
    rwa [ha.reading, ha.closings]
  | true =>
    cases s with
    | leave =>
      show l.leave.isClosed
      unfold leave
      split
      . next hq => exact hr _ _ (by simp [hq])
      . next hq => exact hr _ _ (by simp [hq])
      . next hq => exact hr _ _ (by simp [hq])
      . exact h
      . exact h
    | abort =>
      show l.abort.isClosed
      unfold abort
      split
      . next hq => exact hr _ _ (by simp [hq])
      . exact h
    | shutdown =>
      show l.shutdown.isClosed
      unfold shutdown
      split
      . exact hj _ _
      . exact hj _ _
    | drop => exact hj _ _
    | close m result => exact isClosed_close h m result
    | _ => cases hs

theorem isClosed_playAll (h : l.isClosed) (steps : List Step) : (l.playAll steps).isClosed := by
  induction steps generalizing l with
  | nil => exact h
  | cons s rest ih => exact ih (isClosed_play h s)

/-! ## What is true of the exchange all the time -/

theorem counted_play (h : l.exchange.Counted) (s : Step) (hb : (l.play s).exchange.asks.length ≤ UInt64.size) :
    (l.play s).exchange.Counted := by
  refine ⟨?_, hb⟩
  rcases effect_play l s with he | ⟨move, he, _⟩
  . rw [he]
    exact h.sound
  . rw [he]
    exact h.sound.play h.bounded move

theorem counted_playAll (h : l.exchange.Counted) (steps : List Step)
    (hb : (l.playAll steps).exchange.asks.length ≤ UInt64.size) : (l.playAll steps).exchange.Counted := by
  induction steps generalizing l with
  | nil => exact h
  | cons s rest ih => exact ih (counted_play h s (Nat.le_trans (length_playAll (l.play s) rest) hb)) hb

theorem reasoned_play (h : l.exchange.Reasoned) (s : Step) : (l.play s).exchange.Reasoned := by
  rcases effect_play l s with he | ⟨move, he, _⟩
  . rwa [he]
  . rw [he]
    exact h.play move

theorem reasoned_playAll (h : l.exchange.Reasoned) (steps : List Step) :
    (l.playAll steps).exchange.Reasoned := by
  induction steps generalizing l with
  | nil => exact h
  | cons s rest ih => exact ih (reasoned_play h s)

structure Closed (l : Liaison) : Prop where
  isClosed : l.isClosed
  ordered : l.Ordered

namespace Closed

theorem ceased (h : l.Closed) : l.exchange.Ceased :=
  h.ordered.ceased h.isClosed

theorem play (h : l.Closed) (s : Step) : (l.play s).Closed :=
  ⟨isClosed_play h.isClosed s, h.ordered.play s⟩

theorem playAll (h : l.Closed) (steps : List Step) : (l.playAll steps).Closed :=
  ⟨isClosed_playAll h.isClosed steps, ordered_playAll h.ordered steps⟩

theorem isOpen (h : l.Closed) : l.isOpen = false := by
  unfold Liaison.isOpen
  rw [h.ceased.isAlive, Bool.and_false]

end Closed

/-! ## Visitors and their requests -/

/-- Nobody has come further but perhaps the visitor. -/
def Turns (l : Liaison) (i : Nat) (v : Visitor) (l' : Liaison) : Prop :=
  l'.visitors = l.visitors ∨ ∃ stage, l'.visitors = l.visitors.set i { v with stage }

theorem turns_proceed (l : Liaison) (i : Nat) (v : Visitor) : l.Turns i v (l.proceed i v) := by
  unfold proceed
  split
  any_goals exact .inr ⟨_, rfl⟩
  . split <;> exact .inr ⟨_, rfl⟩
  . split <;> exact .inr ⟨_, rfl⟩
  . split
    . exact .inr ⟨_, rfl⟩
    . exact .inl rfl
  . split <;> exact .inr ⟨_, rfl⟩
  . exact .inl rfl

theorem turns_refuse (l : Liaison) (i : Nat) (v : Visitor) : l.Turns i v (l.refuse i v) := by
  unfold refuse
  split
  . exact .inl rfl
  . exact .inr ⟨_, rfl⟩
  . exact .inl rfl

theorem visitors_lapse (l : Liaison) (v : Visitor) : (l.lapse v).visitors = l.visitors := by
  unfold lapse
  split
  . split <;> rfl
  . rfl

theorem getElem?_attend (hn : j ≠ i) (hs : ∀ w, l.Turns j w (step w)) :
    (l.attend j step).visitors[i]? = l.visitors[i]? := by
  unfold attend
  split
  . next w _ =>
    rcases hs w with he | ⟨_, he⟩
    . rw [he]
    . rw [he, List.getElem?_set_ne hn]
  . rfl

theorem getElem?_play (hv : l.visitors[i]? = some v) (hn : s.visitor? ≠ some i) :
    (l.play s).visitors[i]? = some v := by
  rw [← hv]
  cases s with
  | visit errand => exact List.getElem?_append_left (List.getElem?_eq_some_iff.mp hv).1
  | proceed j => exact getElem?_attend (fun hj => hn (congrArg some hj)) (turns_proceed l j)
  | refuse j => exact getElem?_attend (fun hj => hn (congrArg some hj)) (turns_refuse l j)
  | lapse j => exact getElem?_attend (fun hj => hn (congrArg some hj)) fun w => .inl (visitors_lapse l w)
  | deliver text =>
    show (l.deliver text).visitors[i]? = _
    unfold deliver
    split <;> rfl
  | leave =>
    show l.leave.visitors[i]? = _
    unfold leave
    split <;> rfl
  | abort =>
    show l.abort.visitors[i]? = _
    unfold abort
    split <;> rfl
  | shutdown =>
    show l.shutdown.visitors[i]? = _
    unfold shutdown
    split <;> rfl
  | close m result =>
    show (l.close m result).visitors[i]? = _
    unfold close
    split <;> rfl
  | drain | write | failWriting | discard | drop => rfl

theorem attend_of_getElem? (hv : l.visitors[i]? = some v) : l.attend i step = step v := by
  unfold attend
  rw [hv]

/-- The visitor goes on with the request, unless that has come to its end. -/
def Drives (l : Liaison) (i n : Nat) (a : Asking) : Prop :=
  a.progress.isDone ∨ ∃ v next, l.visitors[i]? = some v ∧ v.stage = .asking n next

theorem outcome?_eq_none (ha : l.exchange.asks[n]? = some a) (hd : a.progress.isDone = false) :
    l.exchange.outcome? n = none := by
  unfold Exchange.outcome?
  rw [ha]
  cases hp : a.progress <;> simp_all [Progress.outcome?, Progress.isDone]

theorem proceed_asking (hv : l.visitors[i]? = some v) (hs : v.stage = .asking n next)
    (ha : l.exchange.asks[n]? = some a) (hd : a.progress.isDone = false) :
    l.play (.proceed i) = l.after (.advance n) := by
  show l.attend i _ = _
  rw [attend_of_getElem? hv]
  unfold proceed
  rw [hs]
  dsimp only
  rw [outcome?_eq_none ha hd]

theorem Drives.play (h : l.Drives i n a) (ha : l.exchange.asks[n]? = some a)
    (hn : (l.play s).exchange.asks[n]? = some a') : (l.play s).Drives i n a' := by
  cases hp : a.progress.isDone with
  | true =>
    have hd : (l.play s).exchange.asks[n]? = some a := by
      rcases effect_play l s with he | ⟨move, he, _⟩
      . rw [he, ha]
      . rw [he]
        exact Exchange.done_play ha hp move
    rw [hd] at hn
    cases hn
    exact .inl hp
  | false =>
    rcases h with h | ⟨v, next, hv, hs⟩
    . cases hp.symm.trans h
    . refine .inr ⟨v, next, ?_, hs⟩
      by_cases ht : s.visitor? = some i
      . cases s with
        | proceed j =>
          cases ht
          rw [proceed_asking hv hs ha hp]
          exact hv
        | refuse j =>
          cases ht
          show (l.attend i _).visitors[i]? = _
          rw [attend_of_getElem? hv]
          unfold refuse
          rw [hs]
          exact hv
        | lapse j =>
          cases ht
          show (l.attend i _).visitors[i]? = _
          rw [attend_of_getElem? hv, visitors_lapse]
          exact hv
        | _ => cases ht
      . exact getElem?_play hv ht

/-- Every request has a visitor who goes on with it. -/
def Driven (l : Liaison) : Prop :=
  ∀ n a, l.exchange.asks[n]? = some a → ∃ i, l.Drives i n a

theorem driven_start : start.Driven := by
  intro n a ha
  cases ha

theorem Driven.play (h : l.Driven) (s : Step) : (l.play s).Driven := by
  intro n a ha
  cases hb : l.exchange.asks[n]? with
  | some b =>
    rcases h n b hb with ⟨i, hd⟩
    exact ⟨i, hd.play hb ha⟩
  | none =>
    have hn := List.getElem?_eq_none_iff.mp hb
    have hm := (List.getElem?_eq_some_iff.mp ha).1
    rcases effect_play l s with he | ⟨move, he, hg⟩
    . rw [he] at hm
      omega
    . cases hd : move.draws with
      | false =>
        rw [he, Exchange.length_play l.exchange hd] at hm
        omega
      | true =>
        -- Only the visitor can have made the request that now waits for it.
        cases move with
        | draw method params limit cancels =>
          rcases hg with ⟨i, v, next, hv, hw⟩
          have hl : n = l.exchange.asks.length := by
            rw [he] at hm
            exact Nat.le_antisymm (Nat.le_of_lt_succ (by simpa [Exchange.play, Exchange.draw] using hm)) hn
          refine ⟨i, .inr ⟨{ v with stage := .asking n next }, next, ?_, rfl⟩⟩
          rw [hw, hl]
          exact List.getElem?_set_self (List.getElem?_eq_some_iff.mp hv).1
        | _ => cases hd

theorem driven_playAll (h : l.Driven) (steps : List Step) : (l.playAll steps).Driven := by
  induction steps generalizing l with
  | nil => exact h
  | cons s rest ih => exact ih (h.play s)

namespace Closed

theorem tends_play (h : l.Closed) (hk : a.progress.isCommitted → l.exchange.Counted)
    (ha : l.exchange.asks[n]? = some a) (s : Step) :
    Exchange.Tends l.exchange (l.play s).exchange n a a.progress.span := by
  rcases effect_play l s with he | ⟨move, he, hl⟩
  . rw [he]
    exact Exchange.tends_same ha (fun _ => rfl) (Nat.le_refl _)
  . have hn : move = .lapse n → (l.exchange.channel.collect a.request).1 = none := by
      intro hm
      subst hm
      have hf : l.exchange.findsNothing n := hl
      unfold Exchange.findsNothing at hf
      rw [ha] at hf
      exact Option.isNone_iff_eq_none.mp hf
    rcases h.ceased.tends_play hk ha hn with ⟨a', ha', ht⟩
    rw [he]
    exact ⟨a', ha', { ht with span := Nat.le_trans ht.span (Nat.sub_le _ _) }⟩

theorem tends_advance (h : l.Closed) (hk : a.progress.isCommitted → l.exchange.Counted)
    (ha : l.exchange.asks[n]? = some a) :
    Exchange.Tends l.exchange (l.after (.advance n)).exchange n a (a.progress.span - 1) := by
  have ht : Exchange.Tends l.exchange (l.exchange.play (.advance n)) n a _ := h.ceased.tends_play hk ha nofun
  have hm : (Exchange.Move.advance n).advances n = true := beq_self_eq_true n
  rwa [hm] at ht

/-- Every step of its visitor takes a request nearer to its end. -/
theorem tends_proceed (h : l.Closed) (hk : l.exchange.Counted) (hd : l.Drives i n a)
    (ha : l.exchange.asks[n]? = some a) :
    Exchange.Tends l.exchange (l.play (.proceed i)).exchange n a (a.progress.span - 1) := by
  cases hp : a.progress.isDone with
  | true =>
    rcases h.tends_play (fun _ => hk) ha (.proceed i) with ⟨a', ha', ht⟩
    have hs : a.progress.span = 0 := by cases hq : a.progress <;> simp_all [Progress.isDone, Progress.span]
    exact ⟨a', ha', { ht with span := Nat.le_trans ht.span (by omega) }⟩
  | false =>
    rcases hd with hd | ⟨v, next, hv, hs⟩
    . cases hp.symm.trans hd
    . rw [proceed_asking hv hs ha hp]
      exact h.tends_advance (fun _ => hk) ha

theorem tends_playAll (h : l.Closed) (hk : l.exchange.Counted) (hd : l.Drives i n a)
    (ha : l.exchange.asks[n]? = some a) (steps : List Step)
    (hb : (l.playAll steps).exchange.asks.length ≤ UInt64.size) :
    Exchange.Tends l.exchange (l.playAll steps).exchange n a
      (a.progress.span - steps.countP (Step.proceeds i)) := by
  induction steps generalizing l a with
  | nil => exact Exchange.tends_same ha (fun _ => rfl) (Nat.le_refl _)
  | cons s rest ih =>
    have hs : Exchange.Tends l.exchange (l.play s).exchange n a
        (a.progress.span - if s.proceeds i then 1 else 0) := by
      split
      . next hp =>
        cases s with
        | proceed j =>
          cases beq_iff_eq.mp hp
          exact h.tends_proceed hk hd ha
        | _ => cases hp
      . exact h.tends_play (fun _ => hk) ha s
    rcases hs with ⟨a', ha', hn⟩
    have hl := counted_play hk s (Nat.le_trans (length_playAll (l.play s) rest) hb)
    rcases ih (h.play s) hl (hd.play ha ha') ha' hb with ⟨a'', ha'', hn'⟩
    have ht := hn.trans hn'
    refine ⟨a'', ha'', { ht with span := ?_ }⟩
    have h1 := hn.span
    have h2 := hn'.span
    rw [List.countP_cons]
    omega

end Closed

end Liaison

end Turnstile
