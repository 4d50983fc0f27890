import Turnstile.Proofs.Bridge.Finality
import Turnstile.Proofs.Bridge.Handshake

/-!
This module contains the start of a bridge to a process that runs: the handshake as the only errand, whatever the
server does in between, and the cleaning up if it fails.
-/

namespace Turnstile

/-- How far the start of a bridge has come, and what it has returned with. -/
structure Launch where
  liaison : Liaison
  result? : Option (Except BridgeError Answer)

namespace Launch

def begin (config : BridgeConfig) : Launch :=
  ⟨Liaison.start.play (.visit (.introduce config)), none⟩

/-- Can it happen to a bridge that nobody else has yet? -/
def isOutside : Liaison.Step → Bool
  | .visit _ | .proceed _ | .shutdown | .drop | .close .. => false
  | .refuse i | .lapse i => i == 0
  | _ => true

inductive Move where
  /-- The next step of the start, given what will come of stopping the server. -/
  | proceed (stopped : Except BridgeError Unit)
  | happen (step : Liaison.Step)

/-- The handshake goes on. If it has failed, the channel is closed and the server is stopped before that is told. -/
def proceed (l : Launch) (stopped : Except BridgeError Unit) : Launch :=
  match l.result?, l.liaison.answer? 0 with
  | some _, _ => l
  | none, none => { l with liaison := l.liaison.play (.proceed 0) }
  | none, some (.ok answer) => { l with result? := some (.ok answer) }
  | none, some (.error error) =>
    match l.liaison.closings with
    | [] => { l with liaison := l.liaison.play .drop }
    | .stopped _ :: _ => { l with result? := some (.error error) }
    | _ :: _ => { l with liaison := l.liaison.play (.close 0 stopped) }

def play (l : Launch) : Move → Launch
  | .proceed stopped => l.proceed stopped
  | .happen step => if isOutside step then { l with liaison := l.liaison.play step } else l

def playAll (l : Launch) (moves : List Move) : Launch :=
  moves.foldl play l

end Launch

namespace Liaison

variable {l : Liaison}

theorem answer?_eq_some_iff : l.answer? i = some result ↔
    ∃ v, l.visitors[i]? = some v ∧ v.stage = .returned result := by
  unfold answer?
  cases l.visitors[i]? with
  | none => simp
  | some v =>
    rw [Option.bind_some]
    cases hs : v.stage <;> simp [hs]

/-- Whoever has returned has returned for good. -/
theorem answer?_play (h : l.answer? i = some result) (hs : s.isAlone i) : (l.play s).answer? i = some result := by
  rcases answer?_eq_some_iff.mp h with ⟨v, hv, hr⟩
  cases hn : s.visitor? with
  | none =>
    apply answer?_eq_some_iff.mpr
    rw [(hushed_play l hs hn).visitors]
    exact ⟨v, hv, hr⟩
  | some j =>
    have hplay : l.play s = l := by
      cases s with
      | proceed j | refuse j | lapse j =>
        cases eq_of_beq hs
        show l.attend i _ = l
        unfold attend
        rw [hv]
        dsimp only [proceed, refuse, lapse]
        rw [hr]
      | _ => cases hn
    rw [hplay]
    exact h

theorem closings_play (hs : Launch.isOutside s) : (l.play s).closings = l.closings := by
  cases s with
  | leave =>
    show l.leave.closings = _
    unfold leave
    split <;> rfl
  | abort =>
    show l.abort.closings = _
    unfold abort
    split <;> rfl
  | visit | proceed | shutdown | drop | close => cases hs
  | _ => exact (aside_play l rfl).closings

end Liaison

namespace Launch

open Liaison

/-- What is true of the start of a bridge all the time. -/
structure Sane (config : BridgeConfig) (l : Launch) : Prop where
  run : ∃ steps, (∀ s ∈ steps, Liaison.Step.isAlone 0 s) ∧ l.liaison = (begin config).liaison.playAll steps
  closings : l.liaison.closings = [] ∨
    (∃ error, l.liaison.answer? 0 = some (.error error)) ∧ ∃ closing, l.liaison.closings = [closing]
  returned : ∀ result, l.result? = some result → l.liaison.answer? 0 = some result
  /-- A failure is not told before the server has been stopped. -/
  stopped : ∀ error, l.result? = some (.error error) → ∃ stopped, l.liaison.closings = [.stopped stopped]

variable {config : BridgeConfig} {l : Launch} {s : Liaison.Step}

theorem sane_begin (config : BridgeConfig) : Sane config (begin config) where
  run := ⟨[], nofun, rfl⟩
  closings := .inl rfl
  returned _ h := by cases h
  stopped _ h := by cases h

theorem isAlone_of_isOutside (h : isOutside s) : Liaison.Step.isAlone 0 s := by
  cases s <;> first | exact h | cases h

namespace Sane

theorem exists_run (h : Sane config l) (hs : Liaison.Step.isAlone 0 s) :
    ∃ steps, (∀ s ∈ steps, Liaison.Step.isAlone 0 s) ∧ l.liaison.play s = (begin config).liaison.playAll steps := by
  rcases h.run with ⟨steps, hsteps, hl⟩
  refine ⟨steps ++ [s], ?_, ?_⟩
  . rw [List.forall_mem_append, List.forall_mem_singleton]
    exact ⟨hsteps, hs⟩
  . rw [hl]
    exact (List.foldl_concat ..).symm

theorem happen (h : Sane config l) (hs : isOutside s) : Sane config { l with liaison := l.liaison.play s } := by
  have ha := isAlone_of_isOutside hs
  refine ⟨h.exists_run ha, ?_, fun result hr => answer?_play (h.returned result hr) ha, ?_⟩
  . show (l.liaison.play s).closings = [] ∨ _
    rw [closings_play hs]
    exact h.closings.imp_right fun ⟨⟨error, he⟩, hc⟩ => ⟨⟨error, answer?_play he ha⟩, hc⟩
  . show ∀ error, _ → ∃ stopped, (l.liaison.play s).closings = _
    rw [closings_play hs]
    exact h.stopped

/-- Nothing is closed before the handshake has failed. -/
theorem closings_eq_nil (h : Sane config l) (ha : l.liaison.answer? 0 = none) : l.liaison.closings = [] := by
  rcases h.closings with hc | ⟨⟨error, he⟩, _⟩
  . exact hc
  . cases ha.symm.trans he

/-- There is only one who closes. -/
theorem eq_nil_of_closings (h : Sane config l) (hl : l.liaison.closings = closing :: rest) : rest = [] := by
  rcases h.closings with hc | ⟨_, other, hc⟩
  . cases hl.symm.trans hc
  . cases hl.symm.trans hc
    rfl

/-- A step of the cleaning up. -/
theorem clean (h : Sane config l) (hr : l.result? = none) (ha : l.liaison.answer? 0 = some (.error error))
    (hs : Liaison.Step.isAlone 0 s) (hc : ∃ closing, (l.liaison.play s).closings = [closing]) :
    Sane config { l with liaison := l.liaison.play s } where
  run := h.exists_run hs
  closings := .inr ⟨⟨error, answer?_play ha hs⟩, hc⟩
  returned result hq := by cases hr.symm.trans hq
  stopped error hq := by cases hr.symm.trans hq

theorem exists_close (hl : l.liaison.closings = closing :: rest) (h : rest = []) (m : Nat)
    (stopped : Except BridgeError Unit) : ∃ closing, (l.liaison.play (.close m stopped)).closings = [closing] := by
  subst h
  have hset : ∀ other, ∃ closing, l.liaison.closings.set m other = [closing] := by
    intro other
    rw [hl]
    cases m with
    | zero => exact ⟨other, rfl⟩
    | succ m => exact ⟨closing, rfl⟩
  show ∃ closing, (l.liaison.close m stopped).closings = [closing]
  unfold Liaison.close
  split
  . exact hset _
  . exact hset _
  . exact hset _
  . exact ⟨closing, hl⟩
  . exact ⟨closing, hl⟩
  . exact ⟨closing, hl⟩

theorem proceed (h : Sane config l) (stopped : Except BridgeError Unit) : Sane config (l.proceed stopped) := by
  unfold Launch.proceed
  split
  . exact h
  . next hr ha =>
    have hc : (l.liaison.play (.proceed 0)).closings = l.liaison.closings := (aside_play l.liaison rfl).closings
    refine ⟨h.exists_run (s := .proceed 0) rfl, .inl (hc.trans (h.closings_eq_nil ha)), ?_, ?_⟩
    . intro result hq
      cases hr.symm.trans hq
    . intro error hq
      cases hr.symm.trans hq
  . next answer hr ha =>
    refine ⟨h.run, h.closings, ?_, ?_⟩
    . intro result hq
      cases hq
      exact ha
    . intro error hq
      cases hq
  . next error hr ha =>
    split
    . next hc =>
      refine h.clean hr ha rfl ⟨.begun, ?_⟩
      show l.liaison.closings ++ [.begun] = _
      rw [hc]
      rfl
    . next outcome rest hc =>
      refine ⟨h.run, h.closings, ?_, ?_⟩
      . intro result hq
        cases hq
        exact ha
      . intro _ _
        exact ⟨outcome, by rw [hc, h.eq_nil_of_closings hc]⟩
    . next closing rest hn hc =>
      exact h.clean hr ha rfl (exists_close hc (h.eq_nil_of_closings hc) 0 stopped)

theorem play (h : Sane config l) (move : Move) : Sane config (l.play move) := by
  cases move with
  | proceed stopped => exact h.proceed stopped
  | happen s =>
    unfold Launch.play
    dsimp only
    split
    . next hs => exact h.happen hs
    . exact h

end Sane

theorem sane_playAll (h : Sane config l) (moves : List Move) : Sane config (l.playAll moves) := by
  induction moves generalizing l with
  | nil => exact h
  | cons move rest ih => exact ih (h.play move)

end Launch

namespace Handshake

open Dialogue Liaison

variable {config : BridgeConfig} {asks : List Asking} {letters : List Letter} {a b : Asking} {l : Liaison}

theorem getElem?_of_done {n : Nat} {value : Json} (hb : b.progress = .done (.error error))
    (hn : (asks ++ [b])[n]? = some a) (ha : a.progress = .done (.ok value)) (c : Asking) :
    (asks ++ [c])[n]? = some a := by
  rcases Nat.lt_or_ge n asks.length with hlt | hge
  . rw [List.getElem?_append_left hlt] at hn ⊢
    exact hn
  . rw [List.getElem?_append_right hge] at hn
    cases List.mem_singleton.mp (List.mem_of_getElem? hn)
    cases hb.symm.trans ha

/-- What has come does not depend on a request that has no response. -/
theorem Kept.replace (h : Kept config (asks ++ [b]) letters) (hb : b.progress = .done (.error error)) (c : Asking) :
    Kept config (asks ++ [c]) letters := by
  refine ⟨?_, ?_, ?_⟩
  . rcases h.script with ⟨pages, hp, hl⟩
    refine ⟨pages, ?_, hl⟩
    intro n page hn
    rcases hp n page hn with ⟨a, value, ha, hr, hd, hv⟩
    exact ⟨a, value, getElem?_of_done hb ha hd c, hr, hd, hv⟩
  . intro letter hm
    refine (h.introduced letter hm).imp_right ?_
    intro ⟨server, a, value, ha, hr, hd, hs⟩
    exact ⟨server, a, value, getElem?_of_done hb ha hd c, hr, hd, hs⟩
  . have := h.length
    rw [List.length_append] at this ⊢
    exact this

theorem begin_exchange (config : BridgeConfig) : (Launch.begin config).liaison.exchange = .start :=
  rfl

theorem goes_of_talk {said : List Remark} {rest : Talk} (h : (Errand.introduce config).talk.Goes 1 said rest) :
    ∃ left, (handshake config).Goes 1 said left ∧
      rest = left.map (·.map fun (server, tools) => .introduced server tools) :=
  h.of_map

theorem kept_of_tells {v : Visitor} {said : List Remark} {stage : Stage} {more : List Asking} {piece : List Letter}
    (h : Tells (Launch.begin config).liaison 0 v (Errand.introduce config).talk l said stage more piece)
    (hv : v.heeds = false) : Kept config l.exchange.asks l.exchange.own := by
  rcases h.own with ⟨letters, hsaid, hown⟩
  have hasks := h.asks
  have hb := h.barred hv
  rw [begin_exchange] at hown hasks
  have hsettled : ∀ {rest}, (Errand.introduce config).talk.Goes 1 said rest → more = [] → piece = [] →
      Kept config l.exchange.asks l.exchange.own := by
    intro rest hg hm hp
    subst hm hp
    rcases goes_of_talk hg with ⟨left, hg, _⟩
    rw [hasks, hown, List.append_nil, List.append_nil]
    exact kept_of_goes hg hb hsaid
  cases h.amid with
  | before hg | drawing hg | checking hg | telling hg | returned hg => exact hsettled hg rfl rfl
  | @asking method params limit cancels next progress piece hg hp =>
    let a : Asking := ⟨.new (following 1 said) method params, limit, cancels, progress⟩
    -- What was sent of the request would be no different if it had failed by now.
    have hfailed : Asking.Posts { a with progress := .done (.error .closed) } piece := by
      cases hp with
      | nothing _ | refused _ => exact .refused rfl
      | sent _ => exact .sent rfl
    have hsaid := hsaid.concat (.asked hfailed)
    rcases goes_of_talk (hg.append (.ask (.error .closed) .nil)) with ⟨left, hg, _⟩
    have hb : ∀ remark ∈ said ++ [.asked a.request limit cancels (.error .closed)], remark.isBarred = false := by
      rw [List.forall_mem_append, List.forall_mem_singleton]
      exact ⟨hb, rfl⟩
    have hkept := kept_of_goes hg hb hsaid
    rw [askingsOf_concat] at hkept
    have hkept := hkept.replace rfl a
    rw [hasks, hown, List.append_assoc]
    exact hkept

/-- A visitor that has returned has come to the end of the handshake. -/
theorem concluded_of_answer {v : Visitor} {said : List Remark} {stage : Stage} {more : List Asking}
    {piece : List Letter}
    (h : Tells (Launch.begin config).liaison 0 v (Errand.introduce config).talk l said stage more piece)
    (hv : v.heeds = false) (ha : l.answer? 0 = some result) :
    ∃ before, Concluded config said before ∧
      result = before.map (fun (server, tools) => .introduced server tools) ∧
      l.exchange.asks = askingsOf said ∧ Leave said l.exchange.own ∧ l.exchange.channel.nextId = following 1 said := by
  rcases h.own with ⟨letters, hsaid, hown⟩
  have hasks := h.asks
  have hnext := h.nextId
  rw [begin_exchange] at hown hasks hnext
  rcases answer?_eq_some_iff.mp ha with ⟨w, hw, hstage⟩
  cases h.visitor.symm.trans hw
  cases h.amid with
  | returned hg =>
    cases hstage
    rcases goes_of_talk hg with ⟨left, hleft, hr⟩
    rcases done_of_map hr.symm with ⟨before, hdone, he⟩
    subst hdone
    rcases goes_handshake hleft (h.barred hv) with ho | ⟨_, hd, hc⟩
    . cases ho
    . cases hd
      rw [List.append_nil] at hown hasks
      refine ⟨before, hc, he.symm, hasks, ?_, hnext.trans (UInt64.add_zero _)⟩
      rw [hown]
      exact hsaid
  | _ => cases hstage

/-- What holds of the start of a bridge at any time. -/
structure Regular (config : BridgeConfig) (l : Launch) : Prop where
  script : ∃ pages, Paged l.liaison.exchange.asks pages ∧ l.liaison.exchange.own <+: script config pages
  introduced : ∀ letter ∈ l.liaison.exchange.own, letter = .request (Link.hello config) ∨
    ∃ server, Introduced config l.liaison.exchange.asks server
  served : ∀ a ∈ l.liaison.exchange.asks, ∀ outcome, a.progress = .done outcome → Exchange.isServed outcome →
    l.liaison.exchange.Serves a outcome
  ready : ∀ answer, l.result? = some (.ok answer) → ∃ server tools pages, answer = .introduced server tools ∧
    Ready config l.liaison.exchange.asks server tools pages ∧
      l.liaison.exchange.channel.nextId = 2 + .ofNat pages.length
  failed : ∀ error, l.result? = some (.error error) → ∃ step cause, error = .handshake step cause.message ∧
    Fails config l.liaison.exchange.asks l.liaison.exchange.own step cause
  cleaned : ∀ error, l.result? = some (.error error) → l.liaison.exchange.channel.isAlive = false ∧
    l.liaison.exchange.channel.pending = [] ∧ ∃ stopped, l.liaison.closings = [.stopped stopped]

theorem regular_playAll (config : BridgeConfig) (moves : List Launch.Move) :
    Regular config ((Launch.begin config).playAll moves) := by
  let l := (Launch.begin config).playAll moves
  have hl := Launch.sane_playAll (Launch.sane_begin config) moves
  rcases hl.run with ⟨steps, hsteps, hrun⟩
  have hbegin : (Launch.begin config).liaison.visitors[0]? =
      some ⟨false, .before (Errand.introduce config).talk⟩ := rfl
  rcases (tale_begin hbegin rfl).playAll steps hsteps with ⟨said, stage, more, piece, h⟩
  rw [← hrun] at h
  have hkept := kept_of_tells h rfl
  have hcounted : l.liaison.exchange.Counted := by
    have hb : l.liaison.exchange.asks.length ≤ UInt64.size := Nat.le_trans hkept.length (by decide)
    show ((Launch.begin config).playAll moves).liaison.exchange.Counted
    rw [hrun]
    apply counted_playAll ⟨Exchange.sound_start, Nat.zero_le _⟩
    rw [← hrun]
    exact hb
  refine ⟨hkept.script, hkept.introduced, hcounted.sound.served, ?_, ?_, ?_⟩
  . intro answer hr
    rcases concluded_of_answer h rfl (hl.returned _ hr) with ⟨before, hc, he, hasks, _, hnext⟩
    cases before with
    | error error => cases he
    | ok introduced =>
      rcases introduced with ⟨server, tools⟩
      cases he
      rcases ready_of_concluded hc with ⟨pages, hready, hfollowing⟩
      rw [hasks, hnext]
      exact ⟨server, tools, pages, rfl, hready, hfollowing⟩
  . intro error hr
    rcases concluded_of_answer h rfl (hl.returned _ hr) with ⟨before, hc, he, hasks, hsaid, _⟩
    cases before with
    | ok introduced => cases he
    | error failure =>
      cases he
      rw [hasks]
      exact fails_of_concluded hc hsaid
  . intro error hr
    rcases concluded_of_answer h rfl (hl.returned _ hr) with ⟨_, _, _, hasks, _, _⟩
    rcases hl.stopped _ hr with ⟨stopped, hc⟩
    have hordered : l.liaison.Ordered := by
      show ((Launch.begin config).playAll moves).liaison.Ordered
      rw [hrun]
      exact ordered_playAll (ordered_start.play (.visit (.introduce config))) steps
    have hclosed : l.liaison.isClosed := by
      apply isClosed_iff.mpr
      rw [hc]
      exact .inr ⟨.stopped stopped, .head _, rfl⟩
    have hceased := hordered.ceased hclosed
    refine ⟨hceased.isAlive, hceased.pending_eq_nil ?_, stopped, hc⟩
    intro a ha
    rw [hasks] at ha
    rcases exists_done_of_mem ha with ⟨reply, hd⟩
    rw [hd]
    rfl

/-- A start whose program runs: what its handshake comes to, and what is left of its link. -/
structure Started (programs : Programs) (id : BridgeId) (config : BridgeConfig)
    (result : Except BridgeError (ServerInfo × List Tool)) (link : Link) : Prop where
  concluded : ∃ said, Concluded config said result
  ready : ∀ server tools, result = .ok (server, tools) →
    Bridge.start programs id config = .ok ⟨id, config, link, server, tools, false⟩ ∧
      ∃ said pages, Concluded config said result ∧ Ready config (askingsOf said) server tools pages ∧
        link.channel.nextId = 2 + .ofNat pages.length
  failed : ∀ error, result = .error error → Bridge.start programs id config = .error error ∧
    link.channel.isAlive = false ∧ link.channel.pending = [] ∧ link.session.process.exit.isSome

/-- A link is closed if the handshake on it fails, and left as it is otherwise. -/
theorem handshake_cases (l : Link) (config : BridgeConfig) :
    (l.handshake config).1 = (l.hold (Dialogue.handshake config)).1 ∧
      ((∃ introduced, (l.handshake config).1 = .ok introduced ∧
        (l.handshake config).2 = (l.hold (Dialogue.handshake config)).2) ∨
      ∃ error, (l.handshake config).1 = .error error ∧ ∃ before : Link, (l.handshake config).2 = before.close) := by
  unfold Link.handshake
  generalize l.hold (Dialogue.handshake config) = held
  rcases held with ⟨introduced, link⟩
  cases introduced with
  | ok introduced => exact ⟨rfl, .inl ⟨introduced, rfl, rfl⟩⟩
  | error error => exact ⟨rfl, .inr ⟨error, rfl, link, rfl⟩⟩

theorem started_of_handshake {programs : Programs} {id : BridgeId}
    {result : Except BridgeError (ServerInfo × List Tool)} {link : Link} {said : List Remark}
    (hs : Bridge.start programs id config =
      result.map fun introduced => ⟨id, config, link, introduced.1, introduced.2, false⟩)
    (hc : Concluded config said result)
    (hl : (∃ introduced, result = .ok introduced ∧ link.channel.nextId = following 1 said) ∨
      ∃ error, result = .error error ∧ ∃ before : Link, link = before.close) :
    Started programs id config result link := by
  refine ⟨⟨said, hc⟩, ?_, ?_⟩
  . intro server tools hr
    subst hr
    rcases hl with ⟨_, _, hn⟩ | ⟨_, he, _⟩
    . rcases ready_of_concluded hc with ⟨pages, hready, hf⟩
      exact ⟨hs, said, pages, hc, hready, hn.trans hf⟩
    . cases he
  . intro error hr
    subst hr
    rcases hl with ⟨_, he, _⟩ | ⟨_, _, before, hb⟩
    . cases he
    . subst hb
      exact ⟨hs, rfl, rfl, before.isSome_exit_close⟩

theorem started {programs : Programs} {program : Program} {reaction : Reaction}
    (hs : config.spawn programs = .ok (program, reaction)) (id : BridgeId) :
    Started programs id config ((Link.start program reaction).handshake config).1
      ((Link.start program reaction).handshake config).2 := by
  rcases concluded_hold (Link.start program reaction) rfl config with ⟨said, hc, hn⟩
  rcases handshake_cases (Link.start program reaction) config with ⟨he, hl⟩
  rw [← he] at hc
  refine started_of_handshake (Bridge.start_eq hs id) hc (hl.imp_left ?_)
  intro ⟨introduced, hr, hlink⟩
  exact ⟨introduced, hr, by rw [hlink, hn]⟩

namespace Sample

/-- The server refuses to be used. -/
def moves : List Launch.Move :=
  List.replicate 6 (.proceed (.ok ())) ++
  [.happen .write, .happen (.deliver
    "\x7b\"jsonrpc\":\"2.0\",\"id\":1,\"error\":\x7b\"code\":-1,\"message\":\"not now\"\x7d\x7d")] ++
  List.replicate 9 (.proceed (.ok ()))

def launch : Launch :=
  (Launch.begin Link.Sample.config).playAll moves

end Sample

end Handshake

end Turnstile
