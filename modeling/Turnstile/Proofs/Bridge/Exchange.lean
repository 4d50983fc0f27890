import Turnstile.Bridge.Channel

/-!
This module contains exchanges: a channel together with all requests that were ever made on it, each of
which has its own steps, and with the lines that went in and out. Between two steps of one request
anything else can happen: steps of other requests, a line of the server, or the end of the channel.
-/

namespace Turnstile

namespace Channel

def draw (c : Channel) : Channel :=
  { c with nextId := c.nextId + 1 }

def enroll (c : Channel) (id : UInt64) : Channel :=
  { c with pending := id :: c.pending }

theorem register_eq (c : Channel) (method : String) (params : Option Json) :
    c.register method params = (.new c.nextId method params, c.draw.enroll c.nextId) :=
  rfl

theorem ask_of_isAlive {c : Channel} (h : c.isAlive) (method : String) (params : Option Json) :
    c.ask method params = (.ok (.new c.nextId method params),
      (c.draw.enroll c.nextId).queue (line (Rpc.Request.new c.nextId method params))) := by
  have hs : (c.draw.enroll c.nextId).isAlive := h
  unfold ask
  rw [register_eq]
  unfold post send
  dsimp only
  rw [if_pos hs]
  rfl

theorem ask_of_not_isAlive {c : Channel} (h : c.isAlive = false) (method : String) (params : Option Json) :
    c.ask method params = (.error .closed, (c.draw.enroll c.nextId).withdraw c.nextId) := by
  have hs : (c.draw.enroll c.nextId).isAlive = false := h
  unfold ask
  rw [register_eq]
  unfold post send
  dsimp only
  rw [hs]
  rfl

def mute (c : Channel) : Channel :=
  { c with isReading := false }

def discard (c : Channel) : Channel :=
  { c with outbound := [] }

def hears? (c : Channel) (text : String) : Option Rpc.Incoming :=
  if !c.isReading || text.toList.all Blank.isBlank then none else (Rpc.Incoming.ofLine text).toOption

theorem deliver_eq (c : Channel) (text : String) :
    c.deliver text = match c.hears? text with
      | some message => c.receive message
      | none => c := by
  unfold deliver hears? isBlankLine
  rw [String.all_bool_eq]
  split
  . rfl
  . cases Rpc.Incoming.ofLine text <;> rfl

theorem answer_of_mem {c : Channel} {r : Rpc.Response} {id : UInt64} (hi : r.id? = some id)
    (hp : id ∈ c.pending) : c.answer r = { c.withdraw id with answers := (id, r) :: c.answers } := by
  unfold answer
  rw [hi]
  dsimp only
  rw [if_pos (by simpa using hp)]

theorem answer_of_not_mem {c : Channel} {r : Rpc.Response}
    (h : ∀ id, r.id? = some id → id ∉ c.pending) : c.answer r = c := by
  unfold answer
  cases hi : r.id? with
  | none => rfl
  | some id =>
    dsimp only
    rw [if_neg (by simpa using h id hi)]

theorem ofLine_of_hears {c : Channel} (h : c.hears? text = some message) :
    Rpc.Incoming.ofLine text = .ok message := by
  unfold hears? at h
  split at h
  . cases h
  . cases hl : Rpc.Incoming.ofLine text with
    | ok other =>
      rw [hl] at h
      cases h
      rfl
    | error _ =>
      rw [hl] at h
      cases h

theorem deliver_response (c : Channel) (hl : Rpc.Incoming.ofLine text = .ok (.response r)) :
    c.deliver text = c ∨ c.deliver text = c.answer r := by
  rw [deliver_eq]
  unfold hears?
  rw [hl]
  split
  . next message hm =>
    split at hm
    . cases hm
    . cases hm
      exact .inr rfl
  . exact .inl rfl

theorem deliver_orphaned (c : Channel) (hl : Rpc.Incoming.ofLine text = .ok (.response r))
    (hn : ∀ id, r.id? = some id → id ∉ c.pending) : c.deliver text = c := by
  rcases deliver_response c hl with hd | hd
  . exact hd
  . rw [hd, answer_of_not_mem hn]

theorem eq_of_collect {c : Channel} (hc : c.collect request = (none, c')) : c' = c := by
  unfold collect at hc
  split at hc <;> cases hc
  rfl

theorem of_collect {c : Channel} {result : Except BridgeError Json}
    (hc : c.collect request = (some result, c')) :
    (result = .error .closed ∧ c' = c ∧ request.id ∉ c.pending) ∨
      ∃ r, (request.id, r) ∈ c.answers ∧ result = outcome request r ∧
        c' = { c with answers := c.answers.filter fun (id, _) => id ≠ request.id } := by
  unfold collect waiting at hc
  cases hl : c.answers.lookup request.id with
  | some r =>
    rw [hl] at hc
    cases hc
    rcases List.lookup_eq_some_iff.mp hl with ⟨before, behind, he, _⟩
    exact .inr ⟨r, by simp [he], rfl, rfl⟩
  | none =>
    rw [hl] at hc
    by_cases hp : c.pending.contains request.id
    . simp only [hp] at hc
      cases hc
    . simp only [hp] at hc
      cases hc
      exact .inl ⟨rfl, rfl, by simpa using hp⟩

theorem not_mem_withdraw (c : Channel) (id : UInt64) : id ∉ (c.withdraw id).pending := by
  unfold withdraw
  simp

end Channel

instance decidableEqExcept [DecidableEq ε] [DecidableEq α] : DecidableEq (Except ε α)
  | .ok a, .ok b => decidable_of_iff (a = b) (by simp)
  | .error a, .error b => decidable_of_iff (a = b) (by simp)
  | .ok _, .error _ | .error _, .ok _ => isFalse (by simp)

/-- How far a request has come. -/
inductive Progress where
  | drawn
  | registered
  /-- The channel was found to be alive. -/
  | cleared
  /-- It could not be sent, which its entry does not know yet. -/
  | refused
  | waiting
  /-- Its time is over, which its entry does not know yet. -/
  | expired
  /-- Its entry is gone, and the server is to be told. -/
  | leaving
  | notifying
  | done (result : Except BridgeError Json)
  deriving DecidableEq

namespace Progress

/-- Can there be an entry for the request? -/
def isEnrolled : Progress → Bool
  | registered | cleared | refused | waiting | expired => true
  | _ => false

/-- Can the request have been sent? -/
def isSent : Progress → Bool
  | waiting | expired | leaving | notifying | done _ => true
  | _ => false

def isDrawn : Progress → Bool
  | drawn => true
  | _ => false

def isDone : Progress → Bool
  | done _ => true
  | _ => false

end Progress

structure Asking where
  request : Rpc.Request
  limit : Duration
  cancels : Bool
  progress : Progress

namespace Asking

abbrev id (a : Asking) : UInt64 :=
  a.request.id

def timeout (a : Asking) : Progress :=
  .done (.error (.timeout a.request a.limit))

end Asking

inductive Letter where
  | request (request : Rpc.Request)
  | notification (notification : Rpc.Notification)
  | reply (response : Rpc.Response)

namespace Letter

def text : Letter → String
  | request r => Channel.line r
  | notification n => Channel.line n
  | reply r => Channel.line r

def id? : Letter → Option UInt64
  | request r => some r.id
  | _ => none

end Letter

structure Exchange where
  channel : Channel
  /-- The requests in the order of their identifiers. -/
  asks : List Asking
  /-- The lines of the server. -/
  heard : List String
  /-- The requests that got a response, each with the position of the line that the response came in. -/
  routes : List (UInt64 × Nat)
  /-- The messages that were queued, whether or not they were written. -/
  sent : List Letter
  /-- The lines that were written. -/
  wire : List String

namespace Exchange

def start : Exchange :=
  ⟨.start, [], [], [], [], []⟩

def on (e : Exchange) (channel : Channel) : Exchange :=
  { e with channel }

def write (e : Exchange) (letter : Letter) : Exchange :=
  { e with channel := e.channel.queue letter.text, sent := e.sent ++ [letter] }

def put (e : Exchange) (n : Nat) (a : Asking) (progress : Progress) : Exchange :=
  { e with asks := e.asks.set n { a with progress } }

def draw (e : Exchange) (method : String) (params : Option Json) (limit : Duration) (cancels : Bool) :
    Exchange :=
  { e with
    channel := e.channel.draw
    asks := e.asks ++ [⟨.new e.channel.nextId method params, limit, cancels, .drawn⟩] }

/-- The next step of a request, according to how far it has come. -/
def advance (e : Exchange) (n : Nat) (a : Asking) : Exchange :=
  match a.progress with
  | .drawn => (e.put n a .registered).on (e.channel.enroll a.id)
  | .registered => e.put n a (if e.channel.isAlive then .cleared else .refused)
  | .cleared => (e.put n a .waiting).write (.request a.request)
  | .refused => (e.put n a (.done (.error .closed))).on (e.channel.withdraw a.id)
  | .waiting =>
    match e.channel.collect a.request with
    | (some outcome, channel) => (e.put n a (.done outcome)).on channel
    | (none, _) => e
  | .expired => (e.put n a (if a.cancels then .leaving else a.timeout)).on (e.channel.withdraw a.id)
  | .leaving => e.put n a (if e.channel.isAlive then .notifying else a.timeout)
  | .notifying => (e.put n a a.timeout).write (.notification (Channel.cancellation a.id))
  | .done _ => e

/-- The channel was alive, but what is to be written does not come through any more. -/
def refuse (e : Exchange) (n : Nat) (a : Asking) : Exchange :=
  match a.progress with
  | .cleared => e.put n a .refused
  | .notifying => e.put n a a.timeout
  | _ => e

/-- The time of a request is over, which can be found just before its response comes. -/
def lapse (e : Exchange) (n : Nat) (a : Asking) : Exchange :=
  match a.progress with
  | .waiting => e.put n a .expired
  | _ => e

def listen (e : Exchange) (text : String) : Exchange :=
  { e with heard := e.heard ++ [text] }

/-- Notes where the response came in, if somebody waits for it. -/
def route (e : Exchange) (r : Rpc.Response) : List (UInt64 × Nat) :=
  match r.id? with
  | some id => if e.channel.pending.contains id then (id, e.heard.length) :: e.routes else e.routes
  | none => e.routes

def deliver (e : Exchange) (text : String) : Exchange :=
  match e.channel.hears? text with
  | some message =>
    let heard := (e.listen text).on (e.channel.receive message)
    match message with
    | .response r => { heard with routes := e.route r }
    | .request id method _ => { heard with sent := e.sent ++ [.reply (Channel.reply id method)] }
    | .notification _ => heard
  | none => e.listen text

def take (e : Exchange) : Exchange :=
  match e.channel.outbound with
  | [] => e
  | line :: rest =>
    { e with channel := { e.channel with outbound := rest }, wire := e.wire ++ [line] }

/-- What can happen next. Requests are named by their positions. -/
inductive Move where
  | draw (method : String) (params : Option Json) (limit : Duration) (cancels : Bool)
  | advance (n : Nat)
  | refuse (n : Nat)
  | lapse (n : Nat)
  | tell (notification : Rpc.Notification)
  | deliver (text : String)
  | drain
  | take
  | hush
  | release
  | mute
  | discard

def follow (e : Exchange) (n : Nat) (step : Nat → Asking → Exchange) : Exchange :=
  match e.asks[n]? with
  | some a => step n a
  | none => e

def play (e : Exchange) : Move → Exchange
  | .draw method params limit cancels => e.draw method params limit cancels
  | .advance n => e.follow n e.advance
  | .refuse n => e.follow n e.refuse
  | .lapse n => e.follow n e.lapse
  | .tell notification => e.write (.notification notification)
  | .deliver text => e.deliver text
  | .drain => e.on e.channel.drain.2
  | .take => e.take
  | .hush => e.on e.channel.hush
  | .release => e.on e.channel.release
  | .mute => e.on e.channel.mute
  | .discard => e.on e.channel.discard

def playAll (e : Exchange) (moves : List Move) : Exchange :=
  moves.foldl play e

variable {e : Exchange} {a : Asking} {progress : Progress} {id : UInt64}

@[simp]
theorem channel_on (e : Exchange) (c : Channel) : (e.on c).channel = c :=
  rfl

@[simp]
theorem asks_on (e : Exchange) (c : Channel) : (e.on c).asks = e.asks :=
  rfl

@[simp]
theorem channel_put (e : Exchange) (n : Nat) (a : Asking) (progress : Progress) :
    (e.put n a progress).channel = e.channel :=
  rfl

@[simp]
theorem asks_put (e : Exchange) (n : Nat) (a : Asking) (progress : Progress) :
    (e.put n a progress).asks = e.asks.set n { a with progress } :=
  rfl

@[simp]
theorem channel_write (e : Exchange) (letter : Letter) :
    (e.write letter).channel = e.channel.queue letter.text :=
  rfl

@[simp]
theorem asks_write (e : Exchange) (letter : Letter) : (e.write letter).asks = e.asks :=
  rfl

theorem mem_of_mem_put (h : b ∈ (e.put n a progress).asks) : b = { a with progress } ∨ b ∈ e.asks := by
  rcases List.mem_or_eq_of_mem_set h with h | h
  . exact .inr h
  . exact .inl h

theorem mem_put (h : e.asks[n]? = some a) : { a with progress } ∈ (e.put n a progress).asks := by
  apply List.mem_set
  exact (List.getElem?_eq_some_iff.mp h).1

theorem eq_or_mem_put (h : e.asks[n]? = some a) (hb : b ∈ e.asks) :
    b = a ∨ b ∈ (e.put n a progress).asks := by
  rcases List.getElem?_of_mem hb with ⟨m, hm⟩
  by_cases hn : n = m
  . subst hn
    exact .inl (Option.some.inj (hm.symm.trans h))
  . apply Or.inr
    apply List.mem_of_getElem?
    rw [← hm]
    exact List.getElem?_set_ne hn

theorem requests_put (h : e.asks[n]? = some a) (progress : Progress) :
    (e.put n a progress).asks.map Asking.request = e.asks.map Asking.request := by
  apply List.ext_getElem?
  intro m
  show ((e.asks.set n _).map Asking.request)[m]? = _
  rw [List.getElem?_map, List.getElem?_map]
  by_cases hn : n = m
  . subst hn
    rw [h, List.getElem?_set_self (List.getElem?_eq_some_iff.mp h).1]
    rfl
  . rw [List.getElem?_set_ne hn]

theorem route_of_mem (hi : r.id? = some id) (hp : id ∈ e.channel.pending) :
    e.route r = (id, e.heard.length) :: e.routes := by
  unfold route
  rw [hi]
  dsimp only
  rw [if_pos (by simpa using hp)]

theorem route_of_not_mem (h : ∀ id, r.id? = some id → id ∉ e.channel.pending) : e.route r = e.routes := by
  unfold route
  split
  . next id hi => rw [if_neg (by simpa using h id hi)]
  . rfl

theorem requests_follow (hs : ∀ a, e.asks[n]? = some a →
    (step n a).asks.map Asking.request = e.asks.map Asking.request) :
    (e.follow n step).asks.map Asking.request = e.asks.map Asking.request := by
  unfold follow
  split
  . next a ha => exact hs a ha
  . rfl

theorem requests_advance (h : e.asks[n]? = some a) :
    (e.advance n a).asks.map Asking.request = e.asks.map Asking.request := by
  unfold advance
  split
  . exact requests_put h _
  . exact requests_put h _
  . exact requests_put h _
  . exact requests_put h _
  . split
    . exact requests_put h _
    . rfl
  . exact requests_put h _
  . exact requests_put h _
  . exact requests_put h _
  . rfl

theorem requests_refuse (h : e.asks[n]? = some a) :
    (e.refuse n a).asks.map Asking.request = e.asks.map Asking.request := by
  unfold refuse
  split
  . exact requests_put h _
  . exact requests_put h _
  . rfl

theorem requests_lapse (h : e.asks[n]? = some a) :
    (e.lapse n a).asks.map Asking.request = e.asks.map Asking.request := by
  unfold lapse
  split
  . exact requests_put h _
  . rfl

theorem asks_take (e : Exchange) : e.take.asks = e.asks := by
  unfold take
  split <;> rfl

theorem asks_deliver (e : Exchange) (text : String) : (e.deliver text).asks = e.asks := by
  unfold deliver on listen
  split
  . dsimp only
    split <;> rfl
  . rfl

theorem channel_deliver (e : Exchange) (text : String) :
    (e.deliver text).channel = e.channel.deliver text := by
  rw [Channel.deliver_eq]
  unfold deliver on listen
  split
  . dsimp only
    split <;> rfl
  . rfl

theorem requests_play (e : Exchange) (move : Move) :
    e.asks.map Asking.request <+: (e.play move).asks.map Asking.request := by
  have hp : ∀ requests, requests = e.asks.map Asking.request → e.asks.map Asking.request <+: requests := by
    intro requests h
    subst h
    exact List.prefix_rfl
  cases move with
  | draw method params limit cancels =>
    show _ <+: (e.asks ++ [_]).map Asking.request
    rw [List.map_append]
    apply List.prefix_append
  | advance n => exact hp _ (requests_follow fun _ => requests_advance)
  | refuse n => exact hp _ (requests_follow fun _ => requests_refuse)
  | lapse n => exact hp _ (requests_follow fun _ => requests_lapse)
  | deliver text => exact hp _ (congrArg (List.map Asking.request) (asks_deliver e text))
  | take => exact hp _ (congrArg (List.map Asking.request) (asks_take e))
  | tell _ | drain | hush | release | mute | discard => exact hp _ rfl

theorem requests_playAll (e : Exchange) (moves : List Move) :
    e.asks.map Asking.request <+: (e.playAll moves).asks.map Asking.request := by
  induction moves generalizing e with
  | nil => exact List.prefix_rfl
  | cons move rest ih => exact (requests_play e move).trans (ih (e.play move))

theorem length_playAll (e : Exchange) (moves : List Move) :
    e.asks.length ≤ (e.playAll moves).asks.length := by
  have := (requests_playAll e moves).length_le
  rw [List.length_map, List.length_map] at this
  exact this

end Exchange

end Turnstile
