import Turnstile.Proofs.Bridge.Closing
import Turnstile.Proofs.Bridge.Transcript

/-!
This module contains what a visitor of a bridge says while no other visitor does anything. Whatever the server, the
reader, the writer and those who close do in between, there is a transcript of its talk, and what is sent are the
requests and notifications of the transcript in order.
-/

namespace Turnstile

namespace Letter

/-- Is the letter sent of its own accord? Replies and cancellations only follow on something. -/
def isOwn : Letter → Bool
  | request _ => true
  | notification n => n.method ≠ "notifications/cancelled"
  | reply _ => false

@[simp]
theorem isOwn_reply (r : Rpc.Response) : isOwn (.reply r) = false :=
  rfl

end Letter

/-- What is sent of a request, apart from its cancellation. If nothing was sent, it can only have failed. -/
inductive Asking.Posts (a : Asking) : List Letter → Prop where
  | nothing (h : a.progress.isSent = false) : Posts a []
  | refused (h : a.progress = .done (.error .closed)) : Posts a []
  | sent (h : a.progress.isSent) : Posts a [.request a.request]

namespace Asking.Posts

variable {a : Asking} {progress : Progress} {letters : List Letter}

theorem eq_nil (h : a.Posts letters) (hs : a.progress.isSent = false) : letters = [] := by
  cases h with
  | nothing _ => rfl
  | refused _ => rfl
  | sent h => cases hs.symm.trans h

/-- Whoever gets a response has sent a request. -/
theorem eq_of_ok (h : a.Posts letters) (hd : a.progress = .done (.ok value)) : letters = [.request a.request] := by
  cases h with
  | nothing h =>
    rw [hd] at h
    cases h
  | refused h => cases hd.symm.trans h
  | sent _ => rfl

/-- A step at which nothing is sent. -/
theorem keep (h : a.Posts letters) (hs : progress.isSent = a.progress.isSent)
    (hd : a.progress ≠ .done (.error .closed)) : Posts { a with progress } letters := by
  cases h with
  | nothing h => exact .nothing (hs.trans h)
  | refused h => exact absurd h hd
  | sent h => exact .sent (hs.trans h)

end Asking.Posts

namespace Remark

/-- The request of a remark, with all its steps behind it. -/
def asking? : Remark → Option Asking
  | asked request limit cancels reply => some ⟨request, limit, cancels, .done reply⟩
  | _ => none

/-- What is sent for a remark, apart from cancellations. -/
inductive Leaves : Remark → List Letter → Prop where
  | asked (h : Asking.Posts ⟨request, limit, cancels, .done reply⟩ letters) :
    Leaves (asked request limit cancels reply) letters
  | barred : Leaves (barred method params) []
  | told : Leaves (told n (.ok ())) ([.notification n].filter Letter.isOwn)
  | untold : Leaves (told n (.error .closed)) []
  | paused : Leaves (paused time) []

end Remark

/-- The requests of a transcript, with all their steps behind them. -/
def askingsOf (said : List Remark) : List Asking :=
  said.filterMap Remark.asking?

/-- What is sent for a transcript, apart from cancellations. -/
inductive Leave : List Remark → List Letter → Prop where
  | nil : Leave [] []
  | cons (h : Remark.Leaves remark piece) (hs : Leave said letters) : Leave (remark :: said) (piece ++ letters)

theorem Leave.concat (h : Leave said letters) (hr : Remark.Leaves remark piece) :
    Leave (said ++ [remark]) (letters ++ piece) := by
  induction h with
  | nil =>
    have := Leave.cons hr .nil
    rwa [List.append_nil] at this
  | cons hf _ ih =>
    rw [List.append_assoc]
    exact .cons hf ih

theorem Leave.split (h : Leave (said ++ more) letters) :
    ∃ first second, Leave said first ∧ Leave more second ∧ letters = first ++ second := by
  induction said generalizing letters with
  | nil => exact ⟨[], letters, .nil, h, rfl⟩
  | cons remark said ih =>
    cases h with
    | cons hr hs =>
      rcases ih hs with ⟨first, second, hf, hm, he⟩
      exact ⟨_ ++ first, second, .cons hr hf, hm, by rw [he, List.append_assoc]⟩

theorem Leave.of_singleton (h : Leave [remark] letters) : Remark.Leaves remark letters := by
  cases h with
  | cons hr hn =>
    cases hn
    rwa [List.append_nil]

theorem askingsOf_concat (said : List Remark) (remark : Remark) :
    askingsOf (said ++ [remark]) = askingsOf said ++ remark.asking?.toList := by
  unfold askingsOf
  rw [List.filterMap_append]
  cases h : remark.asking? <;> simp [h]

theorem exists_done_of_mem (h : a ∈ askingsOf said) : ∃ reply, a.progress = .done reply := by
  rcases List.mem_filterMap.mp h with ⟨remark, _, hr⟩
  cases remark with
  | asked request limit cancels reply =>
    cases hr
    exact ⟨reply, rfl⟩
  | _ => cases hr

theorem following_concat (id : UInt64) (said : List Remark) (remark : Remark) :
    following id (said ++ [remark]) = following id said + .ofNat remark.asking?.toList.length := by
  unfold following requestsOf
  rw [List.filterMap_append, List.length_append, UInt64.ofNat_add, ← UInt64.add_assoc]
  cases remark <;> rfl

namespace Exchange

/-- The letters that were sent of their own accord. -/
def own (e : Exchange) : List Letter :=
  e.sent.filter Letter.isOwn

/-- Nobody has said anything. -/
structure Hushed (e e' : Exchange) : Prop where
  asks : e'.asks = e.asks
  own : e'.own = e.own
  nextId : e'.channel.nextId = e.channel.nextId

variable {e : Exchange} {a : Asking} {before piece : List Letter}

theorem own_write (e : Exchange) (letter : Letter) : (e.write letter).own = e.own ++ [letter].filter Letter.isOwn :=
  List.filter_append ..

theorem own_deliver (e : Exchange) (text : String) : (e.deliver text).own = e.own := by
  unfold deliver own on listen
  split
  . dsimp only
    split
    . rfl
    . simp
    . rfl
  . rfl

theorem hushed_deliver (e : Exchange) (text : String) : e.Hushed (e.play (.deliver text)) where
  asks := asks_deliver e text
  own := own_deliver e text
  nextId := nextId_play_of_not_draws e rfl

theorem hushed_take (e : Exchange) : e.Hushed (e.play .take) where
  asks := asks_take e
  own := by
    show e.take.own = _
    unfold take
    split <;> rfl
  nextId := nextId_play_of_not_draws e rfl

/-- A request has gone on its way, if only by staying where it is. -/
def Carries (e : Exchange) (n : Nat) (a : Asking) (before : List Letter) (e' : Exchange) : Prop :=
  ∃ progress piece, e'.asks = e.asks.set n { a with progress } ∧ Asking.Posts { a with progress } piece ∧
    e'.own = before ++ piece ∧ e'.channel.nextId = e.channel.nextId

theorem carries_put (hp : Asking.Posts { a with progress } piece) (ho : e.own = before ++ piece)
    (hn : c.nextId = e.channel.nextId) : e.Carries n a before ((e.put n a progress).on c) :=
  ⟨progress, piece, rfl, hp, ho, hn⟩

theorem carries_same (ha : e.asks[n]? = some a) (hp : a.Posts piece) (ho : e.own = before ++ piece) :
    e.Carries n a before e := by
  refine ⟨a.progress, piece, ?_, hp, ho, rfl⟩
  apply List.ext_getElem?
  intro m
  by_cases hm : n = m
  . subst hm
    rw [ha, List.getElem?_set_self (List.getElem?_eq_some_iff.mp ha).1]
  . rw [List.getElem?_set_ne hm]

theorem carries_advance (ha : e.asks[n]? = some a) (hp : a.Posts piece) (ho : e.own = before ++ piece) :
    e.Carries n a before (e.advance n a) := by
  unfold advance
  split
  . next h => exact carries_put (hp.keep (by rw [h]; rfl) (by rw [h]; nofun)) ho rfl
  . next h => exact carries_put (hp.keep (by rw [h]; split <;> rfl) (by rw [h]; nofun)) ho rfl
  . next h =>
    rw [hp.eq_nil (by rw [h]; rfl)] at ho
    refine ⟨.waiting, [.request a.request], rfl, .sent rfl, ?_, rfl⟩
    rw [own_write]
    show e.own ++ _ = _
    rw [ho, List.append_nil]
    rfl
  . next h =>
    rw [hp.eq_nil (by rw [h]; rfl)] at ho
    exact carries_put (.refused rfl) ho rfl
  . next h =>
    split
    . next outcome c hc =>
      refine carries_put (hp.keep (by rw [h]; rfl) (by rw [h]; nofun)) ho ?_
      rcases Channel.of_collect hc with ⟨_, he, _⟩ | ⟨_, _, _, he⟩
      . rw [he]
      . rw [he]
    . exact carries_same ha hp ho
  . next h => exact carries_put (hp.keep (by rw [h]; split <;> rfl) (by rw [h]; nofun)) ho rfl
  . next h => exact carries_put (hp.keep (by rw [h]; split <;> rfl) (by rw [h]; nofun)) ho rfl
  . next h =>
    refine ⟨a.timeout, piece, rfl, hp.keep (by rw [h]; rfl) (by rw [h]; nofun), ?_, rfl⟩
    rw [own_write]
    show e.own ++ [] = _
    rw [ho, List.append_nil]
  . exact carries_same ha hp ho

theorem carries_refuse (ha : e.asks[n]? = some a) (hp : a.Posts piece) (ho : e.own = before ++ piece) :
    e.Carries n a before (e.refuse n a) := by
  unfold refuse
  split
  . next h => exact carries_put (hp.keep (by rw [h]; rfl) (by rw [h]; nofun)) ho rfl
  . next h => exact carries_put (hp.keep (by rw [h]; rfl) (by rw [h]; nofun)) ho rfl
  . exact carries_same ha hp ho

theorem carries_lapse (ha : e.asks[n]? = some a) (hp : a.Posts piece) (ho : e.own = before ++ piece) :
    e.Carries n a before (e.lapse n a) := by
  unfold lapse
  split
  . next h => exact carries_put (hp.keep (by rw [h]; rfl) (by rw [h]; nofun)) ho rfl
  . exact carries_same ha hp ho

theorem carries_follow (ha : e.asks[n]? = some a) (hs : e.Carries n a before (step n a)) :
    e.Carries n a before (e.follow n step) := by
  unfold follow
  rw [ha]
  exact hs

end Exchange

namespace Liaison

/-- Everything that happens on a bridge where no other visitor does anything and none is added. -/
def Step.isAlone (i : Nat) : Step → Bool
  | visit _ => false
  | proceed j | refuse j | lapse j => j == i
  | _ => true

/-- What a visitor has returned with. -/
def answer? (l : Liaison) (i : Nat) : Option (Except BridgeError Answer) :=
  (l.visitors[i]?).bind fun v => match v.stage with
    | .returned result => some result
    | _ => none

/-- The exchange and the visitors after a step that is no step of a visitor. -/
structure Hushed (l l' : Liaison) : Prop where
  exchange : l.exchange.Hushed l'.exchange
  visitors : l'.visitors = l.visitors

theorem hushed_play (l : Liaison) (hs : s.isAlone i) (hv : s.visitor? = none) : l.Hushed (l.play s) := by
  have hsame : l.exchange.Hushed l.exchange := ⟨rfl, rfl, rfl⟩
  cases s with
  | visit errand => cases hs
  | proceed j | refuse j | lapse j => cases hv
  | deliver text =>
    show l.Hushed (l.deliver text)
    unfold Liaison.deliver
    split
    . exact ⟨l.exchange.hushed_deliver text, rfl⟩
    . exact ⟨hsame, rfl⟩
  | write => exact ⟨l.exchange.hushed_take, rfl⟩
  | leave =>
    show l.Hushed l.leave
    unfold leave
    split <;> exact ⟨⟨rfl, rfl, rfl⟩, rfl⟩
  | abort =>
    show l.Hushed l.abort
    unfold abort
    split <;> exact ⟨⟨rfl, rfl, rfl⟩, rfl⟩
  | shutdown =>
    show l.Hushed l.shutdown
    unfold shutdown
    split <;> exact ⟨hsame, rfl⟩
  | close m result =>
    show l.Hushed (l.close m result)
    unfold close
    split <;> exact ⟨⟨rfl, rfl, rfl⟩, rfl⟩
  | drain | failWriting | discard | drop => exact ⟨⟨rfl, rfl, rfl⟩, rfl⟩

/-- Where a visitor is in its talk after what it has said, with the request on its way and what was sent of it. -/
inductive Amid (id : UInt64) (first : Nat) (talk : Talk) (said : List Remark) :
    Stage → List Asking → List Letter → Prop where
  | before (h : talk.Goes id said rest) : Amid id first talk said (.before rest) [] []
  | drawing (h : talk.Goes id said (.ask method params limit cancels next)) :
    Amid id first talk said (.drawing method params limit cancels next) [] []
  | asking (h : talk.Goes id said (.ask method params limit cancels next))
    (hp : Asking.Posts ⟨.new (following id said) method params, limit, cancels, progress⟩ piece) :
    Amid id first talk said (.asking (first + (askingsOf said).length) next)
      [⟨.new (following id said) method params, limit, cancels, progress⟩] piece
  | checking (h : talk.Goes id said (.tell method params next)) :
    Amid id first talk said (.checking (.new method params) next) [] []
  | telling (h : talk.Goes id said (.tell method params next)) :
    Amid id first talk said (.telling (.new method params) next) [] []
  | returned (h : talk.Goes id said (.done result)) : Amid id first talk said (.returned result) [] []

/-- What a visitor has said since it began, and what has come of it. -/
structure Tells (begun : Liaison) (i : Nat) (v : Visitor) (talk : Talk) (l : Liaison) (said : List Remark)
    (stage : Stage) (more : List Asking) (piece : List Letter) : Prop where
  visitor : l.visitors[i]? = some { v with stage }
  amid : Amid begun.exchange.channel.nextId begun.exchange.asks.length talk said stage more piece
  asks : l.exchange.asks = begun.exchange.asks ++ askingsOf said ++ more
  nextId : l.exchange.channel.nextId = following begun.exchange.channel.nextId said + .ofNat more.length
  own : ∃ letters, Leave said letters ∧ l.exchange.own = begun.exchange.own ++ letters ++ piece
  barred : v.heeds = false → ∀ remark ∈ said, remark.isBarred = false

def Tale (begun : Liaison) (i : Nat) (v : Visitor) (talk : Talk) (l : Liaison) : Prop :=
  ∃ said stage more piece, Tells begun i v talk l said stage more piece

namespace Tells

variable {begun l l' : Liaison} {i : Nat} {v : Visitor} {talk rest : Talk} {said : List Remark} {stage : Stage}
  {more : List Asking} {piece letters : List Letter} {remark : Remark}

theorem hushed (h : Tells begun i v talk l said stage more piece) (hl : l.Hushed l') :
    Tells begun i v talk l' said stage more piece := by
  refine ⟨?_, h.amid, ?_, ?_, ?_, h.barred⟩
  . rw [hl.visitors]
    exact h.visitor
  . rw [hl.exchange.asks]
    exact h.asks
  . rw [hl.exchange.nextId]
    exact h.nextId
  . rw [hl.exchange.own]
    exact h.own

theorem getElem?_set (h : Tells begun i v talk l said stage more piece) (w : Visitor) :
    (l.visitors.set i w)[i]? = some w :=
  List.getElem?_set_self (List.getElem?_eq_some_iff.mp h.visitor).1

/-- The visitor goes on without saying anything. -/
theorem turn (h : Tells begun i v talk l said stage [] [])
    (hm : Amid begun.exchange.channel.nextId begun.exchange.asks.length talk said next [] []) :
    Tale begun i v talk (l.turn i { v with stage } next) :=
  ⟨said, next, [], [], h.getElem?_set _, hm, h.asks, h.nextId, h.own, h.barred⟩

/-- The visitor has said something else than a request. -/
theorem say (h : Tells begun i v talk l said stage [] []) (remark : Remark) (hr : remark.asking? = none)
    (hg : talk.Goes begun.exchange.channel.nextId (said ++ [remark]) rest) (hl : remark.Leaves letters)
    (hb : v.heeds = false → remark.isBarred = false)
    (hv : l'.visitors = l.visitors.set i { v with stage := .before rest })
    (ha : l'.exchange.asks = l.exchange.asks) (hn : l'.exchange.channel.nextId = l.exchange.channel.nextId)
    (ho : l'.exchange.own = l.exchange.own ++ letters) : Tale begun i v talk l' := by
  rcases h.own with ⟨before, hs, hown⟩
  refine ⟨said ++ [remark], .before rest, [], [], ?_, .before hg, ?_, ?_, ⟨before ++ letters, hs.concat hl, ?_⟩, ?_⟩
  . rw [hv]
    exact h.getElem?_set _
  . rw [ha, h.asks, askingsOf_concat, hr]
    simp
  . rw [hn, h.nextId, following_concat, hr]
    exact (UInt64.add_zero _).symm
  . rw [ho, hown]
    simp
  . intro hv
    rw [List.forall_mem_append, List.forall_mem_singleton]
    exact ⟨h.barred hv, hb hv⟩

/-- The request of the visitor has gone on its way. -/
theorem carry {a : Asking} {e : Exchange} (h : Tells begun i v talk l said (.asking n next) [a] piece)
    (hs : ∀ before, l.exchange.own = before ++ piece → l.exchange.Carries n a before e) :
    Tale begun i v talk { l with exchange := e } := by
  rcases h.own with ⟨letters, hsaid, hown⟩
  rcases hs _ hown with ⟨progress, letter, hasks, hposts, hsent, hn⟩
  have hlast : l.exchange.asks.set n { a with progress } =
      begun.exchange.asks ++ askingsOf said ++ [{ a with progress }] := by
    have hposition : n = (begun.exchange.asks ++ askingsOf said).length := by
      rw [List.length_append]
      cases h.amid
      rfl
    rw [h.asks, hposition]
    simp
  refine ⟨said, .asking n next, [{ a with progress }], letter, h.visitor, ?_, ?_, ?_, ⟨letters, hsaid, hsent⟩, h.barred⟩
  . cases h.amid with
    | asking hg _ => exact .asking hg hposts
  . rw [← hlast]
    exact hasks
  . show e.channel.nextId = _
    rw [hn, h.nextId]
    rfl

theorem getElem?_asks {a : Asking} (h : Tells begun i v talk l said (.asking n next) [a] piece) :
    l.exchange.asks[n]? = some a := by
  have hposition : n = (begun.exchange.asks ++ askingsOf said).length := by
    rw [List.length_append]
    cases h.amid
    rfl
  rw [h.asks, hposition]
  simp

theorem draw (h : Tells begun i v talk l said (.drawing method params limit cancels next) [] []) :
    Tale begun i v talk (l.proceed i { v with stage := .drawing method params limit cancels next }) := by
  have hn : l.exchange.channel.nextId = following begun.exchange.channel.nextId said :=
    h.nextId.trans (UInt64.add_zero _)
  have hl : l.exchange.asks.length = begun.exchange.asks.length + (askingsOf said).length := by
    rw [h.asks]
    simp
  let a : Asking := ⟨.new (following begun.exchange.channel.nextId said) method params, limit, cancels, .drawn⟩
  refine ⟨said, .asking l.exchange.asks.length next, [a], [], h.getElem?_set _, ?_, ?_, ?_, h.own, h.barred⟩
  . cases h.amid with
    | drawing hg =>
      rw [hl]
      exact .asking hg (.nothing rfl)
  . show l.exchange.asks ++ [⟨.new l.exchange.channel.nextId method params, limit, cancels, .drawn⟩] = _
    rw [hn, h.asks, List.append_nil]
  . show l.exchange.channel.nextId + 1 = _
    rw [hn]
    rfl

/-- The visitor has got the outcome of its request. -/
theorem hear {a : Asking} (h : Tells begun i v talk l said (.asking n next) [a] piece)
    (ho : a.progress.outcome? = some outcome) :
    Tale begun i v talk (l.turn i { v with stage := .asking n next } (.before (next outcome))) := by
  rcases h.own with ⟨letters, hsaid, hown⟩
  have hm := h.amid
  generalize hstage : Stage.asking n next = stage at hm
  cases hm with
  | @asking method params limit cancels _ progress _ hg hp =>
    cases hstage
    cases progress with
    | done reply =>
      cases ho
      have hr := following_concat begun.exchange.channel.nextId said
        (.asked (.new (following begun.exchange.channel.nextId said) method params) limit cancels outcome)
      refine ⟨said ++ [.asked _ limit cancels outcome], .before (next outcome), [], [], h.getElem?_set _,
        .before (hg.append (.ask outcome .nil)), ?_, ?_, ⟨letters ++ piece, hsaid.concat (.asked hp), ?_⟩, ?_⟩
      . show l.exchange.asks = _
        rw [h.asks, askingsOf_concat]
        simp [Remark.asking?]
      . show l.exchange.channel.nextId = _
        rw [h.nextId, hr]
        exact (UInt64.add_zero _).symm
      . show l.exchange.own = _
        rw [hown]
        simp
      . intro hv
        rw [List.forall_mem_append, List.forall_mem_singleton]
        exact ⟨h.barred hv, rfl⟩
    | _ => cases ho

theorem proceed (h : Tells begun i v talk l said stage more piece) :
    Tale begun i v talk (l.proceed i { v with stage }) := by
  have hm := h.amid
  cases hm with
  | @before rest hg =>
    cases rest with
    | done result => exact h.turn (.returned hg)
    | pause time next =>
      exact h.say (.paused time) rfl (hg.append (.pause .nil)) .paused (fun _ => rfl) rfl rfl rfl
        (List.append_nil _).symm
    | ask method params limit cancels next =>
      show Tale begun i v talk (if _ then _ else _)
      split
      . next hb =>
        refine h.say (.barred method params) rfl (hg.append (.barred .nil)) .barred ?_ rfl rfl rfl
          (List.append_nil _).symm
        intro hv
        rw [hv] at hb
        cases hb
      . exact h.turn (.drawing hg)
    | tell method params next =>
      show Tale begun i v talk (if _ then _ else _)
      split
      . exact h.say (.told (.new method params) (.error .closed)) rfl (hg.append (.tell _ .nil)) .untold
          (fun _ => rfl) rfl rfl rfl (List.append_nil _).symm
      . exact h.turn (.checking hg)
  | drawing hg => exact h.draw
  | asking hg hp =>
    unfold Liaison.proceed Exchange.outcome?
    dsimp only
    rw [h.getElem?_asks]
    dsimp only [Option.bind_some]
    split
    . next outcome ho => exact h.hear ho
    . exact h.carry fun before ho =>
        Exchange.carries_follow h.getElem?_asks (Exchange.carries_advance h.getElem?_asks hp ho)
  | checking hg =>
    show Tale begun i v talk (if _ then _ else _)
    split
    . exact h.turn (.telling hg)
    . exact h.say (.told _ (.error .closed)) rfl (hg.append (.tell _ .nil)) .untold
        (fun _ => rfl) rfl rfl rfl (List.append_nil _).symm
  | telling hg =>
    exact h.say (.told _ (.ok ())) rfl (hg.append (.tell _ .nil)) .told
        (fun _ => rfl) rfl rfl rfl (Exchange.own_write _ _)
  | returned hg => exact ⟨said, _, [], [], h⟩

theorem refuse (h : Tells begun i v talk l said stage more piece) :
    Tale begun i v talk (l.refuse i { v with stage }) := by
  have hm := h.amid
  cases hm with
  | asking hg hp =>
    exact h.carry fun before ho =>
      Exchange.carries_follow h.getElem?_asks (Exchange.carries_refuse h.getElem?_asks hp ho)
  | telling hg =>
    exact h.say (.told _ (.error .closed)) rfl (hg.append (.tell _ .nil)) .untold (fun _ => rfl) rfl rfl rfl
      (List.append_nil _).symm
  | before _ | drawing _ | checking _ | returned _ => exact ⟨said, _, [], [], h⟩

theorem lapse (h : Tells begun i v talk l said stage more piece) : Tale begun i v talk (l.lapse { v with stage }) := by
  have hm := h.amid
  cases hm with
  | asking hg hp =>
    show Tale begun i v talk (if _ then _ else _)
    split
    . exact h.carry fun before ho =>
        Exchange.carries_follow h.getElem?_asks (Exchange.carries_lapse h.getElem?_asks hp ho)
    . exact ⟨said, _, _, _, h⟩
  | before _ | drawing _ | checking _ | telling _ | returned _ => exact ⟨said, _, [], [], h⟩

end Tells

namespace Tale

variable {begun l : Liaison} {i : Nat} {v : Visitor} {talk : Talk} {s : Step}

theorem play (h : Tale begun i v talk l) (hs : s.isAlone i) : Tale begun i v talk (l.play s) := by
  rcases h with ⟨said, stage, more, piece, h⟩
  have hattend : ∀ step : Visitor → Liaison, l.attend i step = step { v with stage } := by
    intro step
    unfold attend
    rw [h.visitor]
  cases s with
  | proceed j =>
    cases eq_of_beq hs
    show Tale begun i v talk (l.attend i _)
    rw [hattend]
    exact h.proceed
  | refuse j =>
    cases eq_of_beq hs
    show Tale begun i v talk (l.attend i _)
    rw [hattend]
    exact h.refuse
  | lapse j =>
    cases eq_of_beq hs
    show Tale begun i v talk (l.attend i _)
    rw [hattend]
    exact h.lapse
  | visit errand => cases hs
  | _ => exact ⟨said, stage, more, piece, h.hushed (hushed_play l hs rfl)⟩

theorem playAll (h : Tale begun i v talk l) (steps : List Step) (hs : ∀ s ∈ steps, s.isAlone i) :
    Tale begun i v talk (l.playAll steps) := by
  induction steps generalizing l with
  | nil => exact h
  | cons s rest ih =>
    rw [List.forall_mem_cons] at hs
    exact ih (h.play hs.1) hs.2

end Tale

theorem tale_begin {l : Liaison} {v : Visitor} (hv : l.visitors[i]? = some v) (hs : v.stage = .before talk) :
    Tale l i v talk l := by
  refine ⟨[], .before talk, [], [], ?_, .before .nil, ?_, ?_, ⟨[], .nil, ?_⟩, by simp⟩
  . rw [hv, ← hs]
  . simp [askingsOf]
  . rw [following_nil]
    exact (UInt64.add_zero _).symm
  . simp

end Liaison

end Turnstile
