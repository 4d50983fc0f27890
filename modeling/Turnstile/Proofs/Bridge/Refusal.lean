import Turnstile.Bridge.Basic
import Turnstile.Proofs.Bridge.Exchange

/-!
This module contains what comes of bridges whose channel is not alive: whatever is asked or told is refused at once,
and nothing of it stays behind.
-/

namespace Turnstile

namespace Link

variable {l l' : Link}

/-- Nothing has been queued, the server has heard nothing, and nobody waits who has not waited before. -/
structure Rests (l l' : Link) : Prop where
  isAlive : l'.channel.isAlive = false
  session : l'.session = l.session
  outbound : l'.channel.outbound = l.channel.outbound
  pending : l'.channel.pending ⊆ l.channel.pending

theorem rests_self (h : l.channel.isAlive = false) : l.Rests l :=
  ⟨h, rfl, rfl, List.Subset.refl _⟩

theorem Rests.trans (h : l.Rests l') (hn : l'.Rests l'') : l.Rests l'' where
  isAlive := hn.isAlive
  session := hn.session.trans h.session
  outbound := hn.outbound.trans h.outbound
  pending := List.Subset.trans hn.pending h.pending

theorem sendAll_of_not_isAlive (h : l.channel.isAlive = false) (asked : List (String × Option Json)) :
    (l.sendAll asked).1 = asked.map (fun _ => .error .closed) ∧ l.Rests (l.sendAll asked).2 := by
  induction asked generalizing l with
  | nil => exact ⟨rfl, rests_self h⟩
  | cons first rest ih =>
    rcases first with ⟨method, params⟩
    let registered := l.channel.draw.enroll l.channel.nextId
    let next : Link := { l with channel := registered.withdraw l.channel.nextId }
    have hn : l.Rests next := by
      refine ⟨h, rfl, rfl, ?_⟩
      intro id hm
      rcases List.mem_filter.mp hm with ⟨hm, hi⟩
      rcases List.mem_cons.mp hm with he | hm
      . subst he
        simp at hi
      . exact hm
    have hs : l.sendAll ((method, params) :: rest) =
        (.error .closed :: (next.sendAll rest).1, (next.sendAll rest).2) := by
      rw [sendAll, Channel.ask_of_not_isAlive h]
    rw [hs]
    rcases ih hn.isAlive with ⟨hr, hl⟩
    rw [hr]
    exact ⟨rfl, hn.trans hl⟩

theorem settleAll_of_closed (l : Link) (limit : Duration) (cancels : Bool) (asked : List (String × Option Json)) :
    l.settleAll limit cancels (asked.map fun _ => .error .closed) = (asked.map fun _ => .error .closed, l) := by
  induction asked with
  | nil => rfl
  | cons first rest ih =>
    unfold List.map settleAll
    dsimp only
    rw [ih]

theorem askAll_of_not_isAlive (h : l.channel.isAlive = false) (asked : List (String × Option Json))
    (limit : Duration) (cancels : Bool) :
    (l.askAll asked limit cancels).1 = asked.map (fun _ => .error .closed) ∧
      l.Rests (l.askAll asked limit cancels).2 := by
  rcases sendAll_of_not_isAlive h asked with ⟨hs, hl⟩
  have hn : (asked.map fun _ => (.error .closed : Except BridgeError Rpc.Request)).filterMap Except.toOption = [] := by
    simp [Except.toOption]
  unfold askAll
  dsimp only
  rw [hs, hn, settleAll_of_closed]
  exact ⟨rfl, hl⟩

theorem ask_of_not_isAlive (h : l.channel.isAlive = false) (method : String) (params : Option Json)
    (limit : Duration) (cancels : Bool) :
    (l.ask method params limit cancels).1 = .error .closed ∧ l.Rests (l.ask method params limit cancels).2 := by
  rcases askAll_of_not_isAlive h [(method, params)] limit cancels with ⟨ha, hl⟩
  unfold ask
  split
  . next hq =>
    rw [hq] at ha hl
    exact ⟨(List.cons.inj ha).1, hl⟩
  . next hq =>
    rw [hq] at ha
    cases ha

theorem tell_of_not_isAlive (h : l.channel.isAlive = false) (method : String) (params : Option Json) :
    l.tell method params = (.error .closed, l) := by
  unfold tell Channel.tell Channel.send
  rw [h]
  rfl

/-- A process that has been killed has an exit, which is the one it had before if it had one. -/
theorem isSome_exit_close (l : Link) : l.close.session.process.exit.isSome := by
  show (l.session.process.exit <|> some Exit.killed).isSome
  cases l.session.process.exit <;> rfl

/-- The dialogue is over with its first request. -/
theorem hold_of_not_isAlive (h : l.channel.isAlive = false)
    {next : Except BridgeError Json → Dialogue α} (hn : next (.error .closed) = .done result) :
    (l.hold (.ask method params limit cancels next)).1 = result ∧
      l.Rests (l.hold (.ask method params limit cancels next)).2 := by
  rcases ask_of_not_isAlive h method params limit cancels with ⟨ha, hl⟩
  have hh : l.hold (.ask method params limit cancels next) = (result, (l.ask method params limit cancels).2) := by
    show (l.ask method params limit cancels).2.hold (next (l.ask method params limit cancels).1) = _
    rw [ha, hn]
    rfl
  rw [hh]
  exact ⟨rfl, hl⟩

theorem hold_listFrom_of_not_isAlive (h : l.channel.isAlive = false) (config : BridgeConfig) (left : Nat)
    (seen : List String) (cursor : Option String) (tools : List Tool) :
    (l.hold (Listing.listFrom config left seen cursor tools)).1 = .error .closed ∧
      l.Rests (l.hold (Listing.listFrom config left seen cursor tools)).2 := by
  delta Listing.listFrom
  cases left with
  | zero => exact hold_of_not_isAlive h rfl
  | succ left => exact hold_of_not_isAlive h rfl

theorem hold_listTools_of_not_isAlive (h : l.channel.isAlive = false) (config : BridgeConfig) :
    (l.hold (Dialogue.listTools config)).1 = .error .closed ∧ l.Rests (l.hold (Dialogue.listTools config)).2 :=
  hold_listFrom_of_not_isAlive h config _ [] none []

theorem hold_callAll_of_not_isAlive (h : l.channel.isAlive = false) (hc : calls ≠ .many []) (limit : Duration)
    (cancels : Bool) :
    (l.hold (Dialogue.callAll limit cancels calls)).1 = .error .closed ∧
      l.Rests (l.hold (Dialogue.callAll limit cancels calls)).2 := by
  cases calls with
  | one only => exact hold_of_not_isAlive h rfl
  | many calls =>
    cases calls with
    | nil => exact absurd rfl hc
    | cons first rest => exact hold_of_not_isAlive h rfl

end Link

namespace Bridge

variable {b : Bridge}

/-- Whatever is asked or told is refused, and leaves a bridge that refuses it as well. -/
structure Refuses (b : Bridge) : Prop where
  isOpen : b.isOpen = false
  askAll : ∀ asked limit, (b.askAll asked limit).1 = asked.map (fun _ => .error .closed) ∧
    b.link.Rests (b.askAll asked limit).2.link
  ask : ∀ method params limit, (b.ask method params limit).1 = .error .closed ∧
    b.link.Rests (b.ask method params limit).2.link
  tell : ∀ method params, (b.tell method params).1 = .error .closed ∧
    b.link.Rests (b.tell method params).2.link
  callAll : ∀ calls limit, calls ≠ .many [] → (b.callAll calls limit).1 = .error .closed ∧
    b.link.Rests (b.callAll calls limit).2.link
  refresh : b.refresh.1 = .error .closed ∧ b.link.Rests b.refresh.2.link

theorem refuses_of_not_isAlive (h : b.link.channel.isAlive = false) : b.Refuses where
  isOpen := by
    unfold isOpen
    rw [h, Bool.and_false]
  askAll asked limit := by
    unfold askAll
    split
    . exact ⟨rfl, Link.rests_self h⟩
    . exact Link.askAll_of_not_isAlive h asked limit b.config.cancelOnTimeout
  ask method params limit := by
    unfold ask
    split
    . exact ⟨rfl, Link.rests_self h⟩
    . exact Link.ask_of_not_isAlive h method params limit b.config.cancelOnTimeout
  tell method params := by
    unfold tell
    split
    . exact ⟨rfl, Link.rests_self h⟩
    . rw [Link.tell_of_not_isAlive h]
      exact ⟨rfl, Link.rests_self h⟩
  callAll calls limit hc := Link.hold_callAll_of_not_isAlive h hc limit b.config.cancelOnTimeout
  refresh := by
    rcases Link.hold_listTools_of_not_isAlive h b.config with ⟨hr, hl⟩
    unfold refresh
    split
    . next hq =>
      rw [hq] at hr
      cases hr
    . next hq =>
      rw [hq] at hr hl
      exact ⟨hr, hl⟩

theorem refuses_shutdown (h : b.isShut = false) : b.shutdown.Refuses := by
  apply refuses_of_not_isAlive
  unfold shutdown
  rw [h]
  rfl

theorem shutdown_shutdown (b : Bridge) : b.shutdown.shutdown = b.shutdown := by
  have hs : b.shutdown.isShut := by
    unfold shutdown
    split
    . next h => exact h
    . rfl
  rw [shutdown, if_pos hs]

end Bridge

end Turnstile
