import Turnstile.Bridge.Pool
import Turnstile.Proofs.Bridge.Reader

/-!
This module contains servers that are prompt: they answer each request at once and with a single line. The
handshake with such a server succeeds, so that a bridge to it starts.
-/

namespace Turnstile

namespace LineReader

/-- The text can be sent as a line to someone who reads lines up to the limit. -/
structure Carries (limit : Option Nat) (line : String) : Prop where
  lineFeed : lineFeed ∉ line.toUTF8.data.toList
  carriageReturn : line.toUTF8.data.toList.getLast? ≠ some carriageReturn
  length : limit.any (· < line.toUTF8.size) = false

variable {limit : Option Nat} {line : String}

theorem lineFeedFrom?_append {bytes : ByteArray} (h : LineReader.lineFeed ∉ bytes.data.toList) {position : Nat}
    (hp : position ≤ bytes.size) :
    lineFeedFrom? (bytes ++ "\n".toUTF8) position = some bytes.size := by
  have hsize : (bytes ++ "\n".toUTF8).size = bytes.size + 1 := ByteArray.size_append
  induction hk : bytes.size - position generalizing position with
  | zero =>
    obtain rfl : position = bytes.size := by omega
    have hget : (bytes ++ "\n".toUTF8)[bytes.size] = LineReader.lineFeed := by
      rw [ByteArray.getElem_append_right (Nat.le_refl _)]
      simp only [Nat.sub_self]
      rfl
    unfold lineFeedFrom?
    rw [dif_pos (by omega), if_pos hget]
  | succ k ih =>
    have hlt : position < bytes.size := by omega
    have hget : (bytes ++ "\n".toUTF8)[position] ≠ LineReader.lineFeed := by
      rw [ByteArray.getElem_append_left hlt]
      intro he
      apply h
      rw [← he]
      exact Array.mem_toList_iff.mpr (Array.getElem_mem hlt)
    unfold lineFeedFrom?
    rw [dif_pos (by omega), if_neg hget]
    exact ih hlt (by omega)

theorem trimmedEnd_append {bytes more : ByteArray}
    (h : bytes.data.toList.getLast? ≠ some LineReader.carriageReturn) :
    trimmedEnd (bytes ++ more) bytes.size = bytes.size := by
  unfold trimmedEnd
  split
  . next hpos =>
    rw [if_neg]
    rw [ByteArray.getElem_append_left (by omega)]
    intro he
    apply h
    rw [List.getLast?_eq_getElem?, List.getElem?_eq_some_iff]
    exact ⟨Nat.sub_lt hpos.1 Nat.one_pos, he⟩
  . rfl

theorem textBefore?_append (more : ByteArray)
    (h : line.toUTF8.data.toList.getLast? ≠ some LineReader.carriageReturn) :
    textBefore? (line.toUTF8 ++ more) line.toUTF8.size = some line := by
  unfold textBefore?
  rw [trimmedEnd_append h, ByteArray.extract_append_eq_left rfl]
  exact dif_pos line.isValidUTF8

theorem next_line (h : Carries limit line) :
    ((start limit).feed (line ++ "\n").toUTF8).next = (.line line, start limit) := by
  have hrest : (start limit).feed (line ++ "\n").toUTF8 = ⟨limit, line.toUTF8 ++ "\n".toUTF8, 0, false⟩ := by
    simp [feed, start]
  have hcut : (line.toUTF8 ++ "\n".toUTF8).extract (line.toUTF8.size + 1)
      (line.toUTF8 ++ "\n".toUTF8).size = .empty := by
    rw [ByteArray.extract_eq_empty_iff, ByteArray.size_append, Nat.min_self]
    exact Nat.le_refl _
  rw [hrest]
  unfold next
  dsimp only
  rw [lineFeedFrom?_append h.lineFeed (Nat.zero_le _)]
  dsimp only
  rw [textBefore?_append _ h.carriageReturn, hcut, if_neg]
  . rfl
  . rw [exceeds, h.length]
    exact Bool.false_ne_true

theorem next_start (limit : Option Nat) : (start limit).next = (.incomplete, start limit) := by
  have hnone : lineFeedFrom? .empty 0 = none := by
    unfold lineFeedFrom?
    rfl
  unfold next exceeds start
  dsimp only
  rw [hnone]
  cases limit
  . rfl
  . rfl

theorem go_start (limit : Option Nat) (fuel : Nat) (texts : List String) :
    lines.go (start limit) fuel texts = (texts.reverse, start limit) := by
  cases fuel with
  | zero => rfl
  | succ fuel => rw [lines.go, next_start]

theorem lines_line (h : Carries limit line) :
    ((start limit).feed (line ++ "\n").toUTF8).lines = ([line], start limit) := by
  have hsize : ((start limit).feed (line ++ "\n").toUTF8).rest.size = line.toUTF8.size + 1 := by
    simp [feed, start, ByteArray.size_append]
    rfl
  unfold lines
  rw [hsize, lines.go, next_line h]
  exact go_start limit _ [line]

end LineReader

theorem Process.plan_of_nil {p : Process} (h : p.agenda = []) (now : Duration) (reaction : Reaction) :
    p.plan now reaction = { p with agenda := reaction.map fun (delay, effect) => (now + delay, effect) } := by
  unfold plan
  rw [h]
  simp

/-- A process that has heard everything. -/
def Process.going (program : Program) (agenda : List (Duration × Effect)) : Process :=
  ⟨program, .start none, true, true, false, agenda, [], {}, none⟩

namespace Process

variable {program next : Program} {reaction : Reaction} {line : String}

theorem listen_line (hl : LineReader.Carries none line) (hp : program.hear line = (next, reaction))
    (now : Duration) :
    { going program [] with input := (LineReader.start none).feed (line ++ "\n").toUTF8 }.listen now =
      going next (reaction.map fun (delay, effect) => (now + delay, effect)) := by
  have hhear : hearLine now (going program []) line =
      going next (reaction.map fun (delay, effect) => (now + delay, effect)) := by
    unfold hearLine going
    dsimp only
    rw [hp]
    exact plan_of_nil rfl now reaction
  unfold listen
  refine (if_neg Bool.false_ne_true).trans ?_
  dsimp only
  rw [LineReader.lines_line hl]
  show (if (hearLine now (going program []) line).input.isOver ||
    !(hearLine now (going program []) line).isOpen then _ else hearLine now (going program []) line) = _
  rw [hhear]
  exact if_neg Bool.false_ne_true

end Process

namespace Link

variable {c : Channel} {id : UInt64} {program next : Program} {agenda : List (Duration × Effect)}
  {now limit : Duration} {line text method : String} {params : Option Json} {reaction : Reaction}
  {response : Rpc.Response}

/-- A link whose server is ready. -/
def ready (c : Channel) (program : Program) (agenda : List (Duration × Effect)) (now : Duration) : Link :=
  ⟨c, ⟨.going program agenda, .start (some Channel.longestLine), [], now⟩⟩

theorem now_ready : (ready c program agenda now).now = now := rfl

theorem due?_ready : (ready c program agenda now).session.due? = agenda.head?.map Prod.fst := by
  simp [ready, Session.due?, Session.isOver, Process.going, Process.due?, LineReader.start]

/-- A channel that is on its own, with the number of its next request. -/
def idle (id : UInt64) : Channel :=
  ⟨id, [], [], [], [], true, true⟩

/-- A channel that has something to say for which there is no response. -/
def telling (id : UInt64) (line : String) : Channel :=
  ⟨id, [], [], [], [line], true, true⟩

/-- A channel with one request on its way. -/
def asking (id : UInt64) (outbound : List String) : Channel :=
  ⟨id + 1, [id], [], [], outbound, true, true⟩

/-- A channel with the response to its last request. -/
def answered (id : UInt64) (response : Rpc.Response) : Channel :=
  ⟨id + 1, [], [(id, response)], [], [], true, true⟩

theorem start_eq (program : Program) : start program [] = ready (idle 1) program [] .zero := by
  unfold start Session.start Process.start
  rw [Process.plan_of_nil rfl]
  rfl

/-- What is queued is heard, and what the server does about it is on its agenda. -/
theorem flush_line (hc : c.outbound = [line]) (hl : LineReader.Carries none line)
    (hp : program.hear line = (next, reaction)) :
    (ready c program [] now).flush =
      ready { c with outbound := [] } next (reaction.map fun (delay, effect) => (now + delay, effect)) now := by
  have hlisten := Process.listen_line hl hp now
  unfold flush Channel.takeOutbound
  dsimp only [ready]
  rw [hc]
  show Link.mk _ ⟨{ Process.going program [] with
    input := (LineReader.start none).feed (line ++ "\n").toUTF8 }.listen now, _, _, _⟩ = _
  rw [hlisten]
  rfl

theorem flush_nothing (hc : c.outbound = []) : (ready c program agenda now).flush = ready c program agenda now := by
  rcases c with ⟨id, pending, answers, notifications, outbound, alive, reading⟩
  cases hc
  rfl

/-- The line that the server has put out is delivered, and nothing else is going to happen. -/
theorem proceed_line (hl : LineReader.Carries (some Channel.longestLine) text) :
    (ready c program [(now, .line text)] now).proceed = ready (c.deliver text) program [] now := by
  have hsession : (ready c program [(now, .line text)] now).session.proceed =
      { (ready c program [] now).session with lines := [text] } := by
    unfold Session.proceed
    show (⟨.going program [], ((LineReader.start _).feed (text ++ "\n").toUTF8).lines.2,
      ((LineReader.start _).feed (text ++ "\n").toUTF8).lines.1, if now ≤ now then now else now⟩ : Session) = _
    rw [LineReader.lines_line hl, ite_self]
    rfl
  unfold proceed
  rw [hsession]
  rfl

/-- The server answers the line at once with a response. -/
structure Answers (program : Program) (line : String) (response : Rpc.Response) (next : Program) : Prop where
  heard : LineReader.Carries none line
  answer : ∃ text, program.hear line = (next, [(.zero, .line text)])
    ∧ LineReader.Carries (some Channel.longestLine) text ∧ Rpc.Incoming.ofLine text = .ok (.response response)

theorem deliver_response (hm : Rpc.Incoming.ofLine text = .ok (.response response)) (hi : response.id? = some id) :
    (asking id []).deliver text = answered id response := by
  have hb : isBlankLine text = false := by
    cases hb : isBlankLine text with
    | false => rfl
    | true =>
      rw [Rpc.Incoming.ofLine_of_isBlankLine hb] at hm
      cases hm
  unfold Channel.deliver
  simp [asking, answered, hb, hm, Channel.receive, Channel.answer, hi, Channel.withdraw]

theorem patience_eq : Session.patience = 999999998 + 2 :=
  rfl

/-- Nothing has to be waited for if the answer comes at once. -/
theorem attend_answer {deadline : Duration} {isServed : Channel → Bool}
    (h : Answers program line response next) (hi : response.id? = some id)
    (hd : now < deadline) (hp : isServed (asking id []) = false) (ha : isServed (answered id response) = true)
    (steps : Nat) :
    (ready (asking id [line]) program [] now).attend deadline isServed (steps + 2) =
      ready (answered id response) next [] now := by
  rcases h with ⟨hheard, text, hhear, hcarries, hmessage⟩
  have hflush : (ready (asking id [line]) program [] now).flush =
      ready (asking id []) next [(now, .line text)] now := flush_line rfl hheard hhear
  have hwaits : ¬ isServed (ready (asking id []) next [(now, .line text)] now).channel := by
    show ¬ isServed (asking id [])
    rw [hp]
    exact Bool.false_ne_true
  unfold attend
  dsimp only
  rw [hflush, due?_ready]
  dsimp only [List.head?_cons, Option.map_some]
  rw [if_neg hwaits, if_pos hd, proceed_line hcarries, deliver_response hmessage hi]
  unfold attend
  dsimp only
  rw [flush_nothing rfl, due?_ready]
  exact if_pos ha

theorem ask_ready (h : Answers program (Channel.line (Rpc.Request.new id method params)) response next)
    (hi : response.id? = some id) (hl : .zero < limit) (cancels : Bool) :
    (ready (idle id) program [] now).ask method params limit cancels =
      (Channel.outcome (.new id method params) response, ready (idle (id + 1)) next [] now) := by
  have hsend : (ready (idle id) program [] now).sendAll [(method, params)] =
      ([.ok (Rpc.Request.new id method params)],
        ready (asking id [Channel.line (Rpc.Request.new id method params)]) program [] now) := rfl
  generalize hrequest : Rpc.Request.new id method params = request at h hsend ⊢
  have hid : request.id = id := by
    rw [← hrequest]
    rfl
  have hlt : now < now + limit := Nat.lt_add_of_pos_right hl
  have hawait : (ready (asking id [Channel.line request]) program [] now).await [request] (now + limit) =
      ready (answered id response) next [] now := by
    unfold await
    have hnot : ¬ now + limit ≤ now := Nat.not_le_of_lt hlt
    rw [now_ready, if_neg hnot, patience_eq]
    apply attend_answer h hi hlt
    . simp [asking, Channel.waiting, hid]
    . simp [answered, Channel.waiting, hid]
  have hsettle : (ready (answered id response) next [] now).settle request limit cancels =
      (Channel.outcome request response, ready (idle (id + 1)) next [] now) := by
    unfold settle Channel.collect Channel.waiting
    simp [ready, idle, answered, hid]
  have hall : (ready (idle id) program [] now).askAll [(method, params)] limit cancels =
      ([Channel.outcome request response], ready (idle (id + 1)) next [] now) := by
    unfold askAll
    rw [hsend]
    show settleAll ((ready (asking id [Channel.line request]) program [] now).await [request] (now + limit))
      limit cancels [.ok request] = _
    rw [hawait]
    unfold settleAll
    dsimp only
    rw [hsettle]
    rfl
  unfold ask
  rw [hall]

theorem tell_ready (method : String) (params : Option Json) :
    (ready (idle id) program [] now).tell method params =
      (.ok (), ready (telling id (Channel.line (Rpc.Notification.new method params))) program [] now) :=
  rfl

/-- The server hears a notification, about which it does nothing. -/
theorem pause_told (hl : LineReader.Carries none line) (hp : program.hear line = (next, [])) (time : Duration) :
    (ready (telling id line) program [] now).pause time = ready (idle id) next [] (now + time) := by
  have hflush : (ready (telling id line) program [] now).flush = ready (idle id) next [] now :=
    flush_line rfl hl hp
  have hle : now ≤ now + time := Nat.le_add_right _ _
  unfold pause
  rw [patience_eq]
  unfold attend
  dsimp only
  rw [hflush, due?_ready]
  dsimp only [List.head?_nil, Option.map_none]
  rw [if_neg Bool.false_ne_true]
  exact if_pos hle

/-! ## The handshake -/

theorem hold_ask {l later : Link} {cancels : Bool} {next : Except BridgeError Json → Dialogue α}
    (h : l.ask method params limit cancels = (reply, later)) :
    l.hold (.ask method params limit cancels next) = later.hold (next reply) := by
  rw [hold, h]

theorem hold_tell {l later : Link} {next : Except BridgeError Unit → Dialogue α}
    (h : l.tell method params = (sent, later)) : l.hold (.tell method params next) = later.hold (next sent) := by
  rw [hold, h]

theorem hold_pause {l later : Link} {time : Duration} {next : Unit → Dialogue α} (h : l.pause time = later) :
    l.hold (.pause time next) = later.hold (next ()) := by
  rw [hold, h]

theorem hold_map {l later : Link} {d : Dialogue α} (h : l.hold d = (result, later)) (f : α → β) :
    l.hold (d.map f) = (f result, later) := by
  induction d generalizing l with
  | done result =>
    cases h
    rfl
  | ask method params limit cancels next ih => exact ih _ h
  | tell method params next ih => exact ih _ h
  | pause time next ih => exact ih _ h

theorem hold_listFrom {l later : Link} {page : ToolsPage} (config : BridgeConfig) (cursor : Option String)
    (ha : l.ask "tools/list" (Listing.params cursor) config.timeoutDuration config.cancelOnTimeout = (reply, later))
    (hp : Listing.pageOf reply = .ok page) (hc : Listing.cursor? page = none) (left : Nat) (seen : List String)
    (tools : List Tool) :
    l.hold (Listing.listFrom config left seen cursor tools) = (.ok (tools ++ page.tools), later) := by
  delta Listing.listFrom
  cases left
  all_goals
    refine (hold_ask ha).trans ?_
    dsimp only
    rw [hp]
    dsimp only
    rw [hc]
    rfl

theorem handshake_of_hold {l later : Link} {config : BridgeConfig} {introduced : ServerInfo × List Tool}
    (h : l.hold (Dialogue.handshake config) = (.ok introduced, later)) :
    l.handshake config = (.ok introduced, later) := by
  unfold handshake
  rw [h]

section

variable {config : BridgeConfig} {server : ServerInfo} {page : ToolsPage} {first second last : Program}
  {introduced listed : Rpc.Response}

/-- The first request of a handshake. -/
def hello (config : BridgeConfig) : Rpc.Request :=
  .new 1 "initialize" (some (Dialogue.introduction config))

def confirmed : Rpc.Notification :=
  .new "notifications/initialized" none

/-- The last request of a handshake, if the tools are on one page. -/
def listing : Rpc.Request :=
  .new (1 + 1) "tools/list" none

theorem handshake_start (hlimit : .zero < config.timeoutDuration)
    (hhello : Answers program (Channel.line (hello config)) introduced first) (hid : introduced.id? = some 1)
    (hserver : Dialogue.serverOf (Channel.outcome (hello config) introduced) = .ok server)
    (hcarries : LineReader.Carries none (Channel.line confirmed))
    (hconfirmed : first.hear (Channel.line confirmed) = (second, []))
    (hlisting : Answers second (Channel.line listing) listed last) (hlid : listed.id? = some (1 + 1))
    (hpage : Listing.pageOf (Channel.outcome listing listed) = .ok page) (hone : Listing.cursor? page = none) :
    ∃ later, (start program []).handshake config = (.ok (server, page.tools), later) := by
  have hasked : ∀ cancels, (ready (idle 1) program [] .zero).ask "initialize"
      (some (Dialogue.introduction config)) config.timeoutDuration cancels =
      (Channel.outcome (hello config) introduced, ready (idle (1 + 1)) first [] .zero) :=
    ask_ready hhello hid hlimit
  have htold : (ready (idle (1 + 1)) first [] .zero).tell "notifications/initialized" none =
      (.ok (), ready (telling (1 + 1) (Channel.line confirmed)) first [] .zero) :=
    tell_ready _ _
  have hpaused : (ready (telling (1 + 1) (Channel.line confirmed)) first [] .zero).pause config.settleDuration =
      ready (idle (1 + 1)) second [] (.zero + config.settleDuration) :=
    pause_told hcarries hconfirmed config.settleDuration
  have hlisted : ∀ cancels, (ready (idle (1 + 1)) second [] (.zero + config.settleDuration)).ask "tools/list" none
      config.timeoutDuration cancels =
      (Channel.outcome listing listed, ready (idle (1 + 1 + 1)) last [] (.zero + config.settleDuration)) :=
    ask_ready hlisting hlid hlimit
  have hfinish : (ready (idle (1 + 1)) second [] (.zero + config.settleDuration)).hold
      (Dialogue.finishHandshake config server) =
      (.ok (server, page.tools), ready (idle (1 + 1 + 1)) last [] (.zero + config.settleDuration)) := by
    have htools := hold_listFrom config none (hlisted _) hpage hone (Listing.maxPages - 1) [] []
    rw [List.nil_append] at htools
    unfold Dialogue.finishHandshake
    exact hold_map htools _
  have hconfirm : (ready (idle (1 + 1)) first [] .zero).hold (Dialogue.confirm config server) =
      (.ok (server, page.tools), ready (idle (1 + 1 + 1)) last [] (.zero + config.settleDuration)) := by
    unfold Dialogue.confirm
    rw [hold_tell htold]
    dsimp only
    rw [hold_pause hpaused, hfinish]
  have hheld : (start program []).hold (Dialogue.handshake config) =
      (.ok (server, page.tools), ready (idle (1 + 1 + 1)) last [] (.zero + config.settleDuration)) := by
    unfold Dialogue.handshake
    rw [start_eq, hold_ask (hasked _), hserver]
    exact hconfirm
  exact ⟨_, handshake_of_hold hheld⟩

end

end Link

/-- A bridge is started once its handshake has succeeded. -/
theorem Bridge.start_of_handshake {programs : Programs} {config : BridgeConfig} {program : Program}
    {introduced : ServerInfo × List Tool} {link : Link} (hs : config.spawn programs = .ok (program, []))
    (hh : (Link.start program []).handshake config = (.ok introduced, link)) (id : BridgeId) :
    start programs id config = .ok ⟨id, config, link, introduced.1, introduced.2, false⟩ := by
  rw [start_eq hs, hh]
  rfl

theorem Pool.exists_start {pool : Pool} {config : BridgeConfig}
    (h : ∀ id, ∃ bridge, Bridge.start pool.programs id config = .ok bridge) :
    ∃ bridge, pool.start config = (.ok ⟨pool.bridges.length⟩, { pool with bridges := pool.bridges ++ [bridge] }) := by
  rcases h ⟨.ofRandom (.ofNat 128 pool.bridges.length)⟩ with ⟨bridge, hb⟩
  refine ⟨bridge, ?_⟩
  unfold start
  dsimp only
  rw [hb]

/-! ## A scripted server -/

theorem Program.hear_scripted {s next : Scripted.Server} {message : Json} {reaction : Reaction}
    (hs : s.isSilent = false) (hp : Json.parse? line = some message)
    (hm : (message.get? "method").bind Json.string? = some method)
    (ha : { s with log := message :: s.log }.answer method message = (next, reaction)) :
    (scripted s).hear line = (scripted next, reaction) := by
  have hhear : s.hear line = (next, reaction) := by
    unfold Scripted.Server.hear
    rw [hs, if_neg Bool.false_ne_true, hp]
    dsimp only
    rw [hm]
    exact ha
  unfold hear
  dsimp only
  rw [hhear]

namespace Link.Sample

/-- An answer without any data. -/
def reply (id : String) : String :=
  "\x7b\"id\":" ++ id ++ ",\"jsonrpc\":\"2.0\",\"result\":\x7b\x7d\x7d"

/-- A server without tools, with the messages that it has heard. -/
def server (log : List Json) (counts : List (String × Nat)) : Scripted.Server :=
  ⟨.object [("on", .object [("initialize", .list [.list [.string (reply "1")]]),
    ("tools/list", .list [.list [.string (reply "2")]])])], log, .ofList counts, false⟩

def programs : Programs :=
  fun _ _ => some (.scripted (server [] []), [])

def config : BridgeConfig :=
  .ofCommand "server"

def introducing : Json :=
  .object [("id", 1), ("jsonrpc", "2.0"), ("method", "initialize"), ("params", Dialogue.introduction config)]

def confirming : Json :=
  .object [("jsonrpc", "2.0"), ("method", "notifications/initialized")]

def asking : Json :=
  .object [("id", 2), ("jsonrpc", "2.0"), ("method", "tools/list")]

def introduced : Scripted.Server :=
  server [introducing] [("initialize", 1)]

def settled : Scripted.Server :=
  server [confirming, introducing] [("initialize", 1), ("notifications/initialized", 1)]

def asked : Scripted.Server :=
  server [asking, confirming, introducing]
    [("initialize", 1), ("notifications/initialized", 1), ("tools/list", 1)]

theorem answers_hello :
    Answers (.scripted (server [] [])) (Channel.line (hello config)) (.success 1 (.object []))
      (.scripted introduced) := by
  have hp : Json.parse? (Channel.line (hello config)) = some introducing := by decide +kernel
  refine ⟨⟨?_, ?_, rfl⟩, reply "1", Program.hear_scripted rfl hp rfl rfl, ⟨?_, ?_, ?_⟩, ?_⟩
  all_goals decide +kernel

theorem hear_confirmed :
    Program.hear (.scripted introduced) (Channel.line confirmed) = (.scripted settled, []) := by
  have hp : Json.parse? (Channel.line confirmed) = some confirming := by decide +kernel
  exact Program.hear_scripted rfl hp rfl rfl

theorem answers_listing :
    Answers (.scripted settled) (Channel.line listing) (.success 2 (.object [])) (.scripted asked) := by
  have hp : Json.parse? (Channel.line listing) = some asking := by decide +kernel
  refine ⟨⟨?_, ?_, rfl⟩, reply "2", Program.hear_scripted rfl hp rfl rfl, ⟨?_, ?_, ?_⟩, ?_⟩
  all_goals decide +kernel

theorem spawn_programs : config.spawn programs = .ok (.scripted (server [] []), []) := by
  have hfinds : config.findsPrograms = true := by
    show (!("server".contains '\x00' || false)) = true
    simp
  unfold BridgeConfig.spawn
  rw [hfinds]
  rfl

theorem exists_start (id : BridgeId) : ∃ bridge, Bridge.start programs id config = .ok bridge := by
  have hcarries : LineReader.Carries none (Channel.line confirmed) := by
    refine ⟨?_, ?_, rfl⟩
    all_goals decide +kernel
  rcases handshake_start (by decide) answers_hello (by decide) rfl hcarries hear_confirmed answers_listing
    (by decide) rfl rfl with ⟨later, h⟩
  exact ⟨_, Bridge.start_of_handshake spawn_programs h id⟩

end Link.Sample

end Turnstile
