import Turnstile.Bridge.Basic
import Turnstile.Proofs.Bridge.Ceasing
import Turnstile.Proofs.Bridge.Traffic

/-!
This module contains transcripts of dialogues: everything that is said in turn, each thing with what comes of it.
Whoever holds a dialogue leaves a transcript of it, be it with a function from requests to replies or with a server
on a link.
-/

namespace Turnstile

/-- Something that is said in a dialogue, with what comes of it. -/
inductive Remark where
  | asked (request : Rpc.Request) (limit : Duration) (cancels : Bool) (reply : Except BridgeError Json)
  /-- A request that was not even made, since the bridge had been shut down. -/
  | barred (method : String) (params : Option Json)
  | told (notification : Rpc.Notification) (sent : Except BridgeError Unit)
  | paused (time : Duration)

namespace Remark

def request? : Remark → Option Rpc.Request
  | asked request .. => some request
  | _ => none

def isBarred : Remark → Bool
  | barred .. => true
  | _ => false

end Remark

/-- The requests of a transcript. -/
def requestsOf (said : List Remark) : List Rpc.Request :=
  said.filterMap Remark.request?

/-- The identifier of the next request after a transcript. -/
def following (id : UInt64) (said : List Remark) : UInt64 :=
  id + .ofNat (requestsOf said).length

@[simp]
theorem following_nil (id : UInt64) : following id [] = id :=
  UInt64.add_zero id

@[simp]
theorem following_asked (id : UInt64) (request : Rpc.Request) (limit : Duration) (cancels : Bool)
    (reply : Except BridgeError Json) (said : List Remark) :
    following id (.asked request limit cancels reply :: said) = following (id + 1) said := by
  show id + UInt64.ofNat ((requestsOf said).length + 1) = id + 1 + _
  rw [UInt64.ofNat_add, UInt64.add_assoc, UInt64.add_comm 1]
  rfl

namespace Dialogue

/--
What is said from the beginning of a dialogue on, and the dialogue that is left after that. The requests are
numbered, beginning with the given identifier.
-/
inductive Goes : UInt64 → Dialogue α → List Remark → Dialogue α → Prop where
  | nil {id : UInt64} : Goes id d [] d
  | ask {id : UInt64} (reply : Except BridgeError Json) (h : Goes (id + 1) (next reply) said rest) :
    Goes id (.ask method params limit cancels next)
      (.asked (.new id method params) limit cancels reply :: said) rest
  | barred {id : UInt64} (h : Goes id (next (.error .closed)) said rest) :
    Goes id (.ask method params limit cancels next) (.barred method params :: said) rest
  | tell {id : UInt64} (sent : Except BridgeError Unit) (h : Goes id (next sent) said rest) :
    Goes id (.tell method params next) (.told (.new method params) sent :: said) rest
  | pause {id : UInt64} (h : Goes id (next ()) said rest) :
    Goes id (.pause time next) (.paused time :: said) rest

variable {id : UInt64} {said : List Remark}

namespace Goes

variable {d rest last : Dialogue α}

theorem append (h : Goes id d said rest) (hm : Goes (following id said) rest more last) :
    Goes id d (said ++ more) last := by
  induction h with
  | nil => rwa [following_nil] at hm
  | ask reply h ih =>
    rw [following_asked] at hm
    exact .ask reply (ih hm)
  | barred h ih => exact .barred (ih hm)
  | tell sent h ih => exact .tell sent (ih hm)
  | pause h ih => exact .pause (ih hm)

/-- What is done with the result of a dialogue makes no difference to what is said. -/
theorem of_map {f : α → β} {d : Dialogue α} {rest : Dialogue β} (h : Goes id (d.map f) said rest) :
    ∃ left, Goes id d said left ∧ rest = left.map f := by
  induction d generalizing id said with
  | done result =>
    cases h
    exact ⟨.done result, .nil, rfl⟩
  | ask method params limit cancels next ih =>
    cases h with
    | nil => exact ⟨_, .nil, rfl⟩
    | ask reply h =>
      rcases ih reply h with ⟨left, hl, hr⟩
      exact ⟨left, .ask reply hl, hr⟩
    | barred h =>
      rcases ih _ h with ⟨left, hl, hr⟩
      exact ⟨left, .barred hl, hr⟩
  | tell method params next ih =>
    cases h with
    | nil => exact ⟨_, .nil, rfl⟩
    | tell sent h =>
      rcases ih sent h with ⟨left, hl, hr⟩
      exact ⟨left, .tell sent hl, hr⟩
  | pause time next ih =>
    cases h with
    | nil => exact ⟨_, .nil, rfl⟩
    | pause h =>
      rcases ih () h with ⟨left, hl, hr⟩
      exact ⟨left, .pause hl, hr⟩

theorem of_done {result : α} (h : Goes id (.done result) said rest) : said = [] ∧ rest = .done result := by
  cases h
  exact ⟨rfl, rfl⟩

end Goes

theorem done_of_map {f : α → β} {d : Dialogue α} {result : β} (h : d.map f = .done result) :
    ∃ before, d = .done before ∧ f before = result := by
  cases d with
  | done before =>
    cases h
    exact ⟨before, rfl, rfl⟩
  | _ => cases h

/-! ## Functions in place of servers -/

end Dialogue

/-- What comes of a request, given all requests up to it. -/
abbrev Respondent := List Rpc.Request → Except BridgeError Json

namespace Dialogue

variable {server other : Respondent} {asked : List Rpc.Request}

end Dialogue

/-! ## Links -/

namespace Exchange

variable {e : Exchange}

theorem nextId_advance (e : Exchange) (n : Nat) (a : Asking) :
    (e.advance n a).channel.nextId = e.channel.nextId := by
  unfold advance
  split
  any_goals rfl
  split
  . next hc =>
    rcases Channel.of_collect hc with ⟨_, hq, _⟩ | ⟨_, _, _, hq⟩
    . rw [hq]
      rfl
    . rw [hq]
      rfl
  . rfl

theorem nextId_deliver (c : Channel) (text : String) : (c.deliver text).nextId = c.nextId := by
  rcases Channel.of_deliver c text with ⟨_, _, hd⟩ | ⟨_, _, _, _, _, hd⟩
  . rw [hd]
  . rw [hd]
    rfl

theorem nextId_follow (hs : ∀ a, (step n a).channel.nextId = e.channel.nextId) :
    (e.follow n step).channel.nextId = e.channel.nextId := by
  unfold follow
  split
  . exact hs _
  . rfl

theorem nextId_play_of_not_draws (e : Exchange) (h : move.draws = false) :
    (e.play move).channel.nextId = e.channel.nextId := by
  cases move with
  | draw => cases h
  | advance n => exact nextId_follow (nextId_advance e n)
  | refuse n =>
    apply nextId_follow
    intro a
    unfold refuse
    split <;> rfl
  | lapse n =>
    apply nextId_follow
    intro a
    unfold lapse
    split <;> rfl
  | deliver text =>
    show (e.deliver text).channel.nextId = _
    rw [channel_deliver, nextId_deliver]
  | take =>
    show e.take.channel.nextId = _
    unfold take
    split <;> rfl
  | tell | drain | hush | release | mute | discard => rfl

/-- Identifiers are only used up by new requests. -/
theorem nextId_playAll (e : Exchange) (moves : List Move) :
    (e.playAll moves).channel.nextId + .ofNat e.asks.length =
      e.channel.nextId + .ofNat (e.playAll moves).asks.length := by
  induction moves generalizing e with
  | nil => rfl
  | cons move rest ih =>
    have hr := ih (e.play move)
    cases hd : move.draws with
    | false =>
      rw [length_play e hd, nextId_play_of_not_draws e hd] at hr
      exact hr
    | true =>
      cases move with
      | draw method params limit cancels =>
        have hl : (e.play (.draw method params limit cancels)).asks.length = e.asks.length + 1 :=
          List.length_append
        have hn : (e.play (.draw method params limit cancels)).channel.nextId = e.channel.nextId + 1 := rfl
        rw [hl, hn, UInt64.ofNat_add, ← UInt64.add_assoc, UInt64.add_assoc _ 1, UInt64.add_comm 1,
          ← UInt64.add_assoc] at hr
        exact (UInt64.add_left_inj _).mp hr
      | _ => cases hd

theorem Leads.nextId {c : Channel} (h : e.Leads c (e.asks ++ more)) :
    c.nextId = e.channel.nextId + .ofNat more.length := by
  rcases h with ⟨moves, hc, ha⟩
  have hn := nextId_playAll e moves
  rw [ha, List.length_append, hc, UInt64.ofNat_add, UInt64.add_comm (.ofNat e.asks.length),
    ← UInt64.add_assoc] at hn
  exact (UInt64.add_left_inj _).mp hn

end Exchange

/-- What is said on a link is numbered as the channel counts, and nothing is barred. -/
theorem Link.goes_hold (l : Link) (d : Dialogue α) :
    ∃ said, d.Goes l.channel.nextId said (.done (l.hold d).1) ∧
      (l.hold d).2.channel.nextId = following l.channel.nextId said ∧ ∀ remark ∈ said, remark.isBarred = false := by
  induction d generalizing l with
  | done result => exact ⟨[], .nil, (following_nil _).symm, by simp⟩
  | ask method params limit cancels next ih =>
    let e := Exchange.start.on l.channel
    rcases e.leads_askOne l method params limit cancels rfl with ⟨a, hl, _⟩
    have hn : (l.ask method params limit cancels).2.channel.nextId = l.channel.nextId + 1 := hl.nextId
    rcases ih (l.ask method params limit cancels).1 (l.ask method params limit cancels).2 with ⟨said, hg, hf, hb⟩
    rw [hn] at hg hf
    refine ⟨_, .ask _ hg, ?_, ?_⟩
    . rw [following_asked]
      exact hf
    . rw [List.forall_mem_cons]
      exact ⟨rfl, hb⟩
  | tell method params next ih =>
    let e := Exchange.start.on l.channel
    have hl := e.leads_tell l method params rfl
    rw [← List.append_nil e.asks] at hl
    have hn : (l.tell method params).2.channel.nextId = l.channel.nextId :=
      hl.nextId.trans (UInt64.add_zero _)
    rcases ih (l.tell method params).1 (l.tell method params).2 with ⟨said, hg, hf, hb⟩
    rw [hn] at hg hf
    refine ⟨_, .tell _ hg, hf, ?_⟩
    rw [List.forall_mem_cons]
    exact ⟨rfl, hb⟩
  | pause time next ih =>
    let e := Exchange.start.on l.channel
    have hl := e.leads_attend l (l.now + time) (fun _ => false) Session.patience rfl
    rw [← List.append_nil e.asks] at hl
    have hn : (l.pause time).channel.nextId = l.channel.nextId := hl.nextId.trans (UInt64.add_zero _)
    rcases ih () (l.pause time) with ⟨said, hg, hf, hb⟩
    rw [hn] at hg hf
    refine ⟨_, .pause hg, hf, ?_⟩
    rw [List.forall_mem_cons]
    exact ⟨rfl, hb⟩

end Turnstile
