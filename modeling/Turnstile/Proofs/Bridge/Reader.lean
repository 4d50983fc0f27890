import Turnstile.Proofs.Bridge.Exchange

/-!
This module contains what the reader of a channel does with the lines of a server, whatever they are and whenever
notifications are drained: responses go to the requests that wait for them, the latest notifications stay in the
queue, requests are replied to, and everything else makes no difference.
-/

namespace Turnstile

/-! ## Blank lines -/

namespace Json

theorem isDigit_of_isBlank (h : Blank.isBlank c) : c.isDigit = false := by
  apply Bool.eq_false_iff.mpr
  intro hd
  simp only [Char.isDigit, ge_iff_le, UInt32.le_iff_toNat_le, Bool.and_eq_true, decide_eq_true_eq] at hd
  simp only [Blank.isBlank, Blank.ranges, Char.toNat] at h
  simp at h hd
  omega

theorem startValue?_of_isBlank (h : Blank.isBlank c) (stack : List Reader.Frame) :
    Reader.startValue? stack c = none := by
  unfold Reader.startValue?
  split
  case h_9 => rw [isDigit_of_isBlank h, if_neg Bool.false_ne_true]
  all_goals exact absurd h (by decide)

theorem advance_of_isBlank (chars : List Char) (h : chars.all Blank.isBlank) :
    ∃ rest, Reader.advance Reader.initial chars = (Reader.initial, rest) := by
  induction chars with
  | nil => exact ⟨[], rfl⟩
  | cons c rest ih =>
    rw [List.all_cons, Bool.and_eq_true] at h
    unfold Reader.advance
    by_cases hc : Reader.isBlank c
    . have hs : Reader.step? Reader.initial c = some Reader.initial := by
        show (if Reader.isBlank c then _ else _) = _
        rw [if_pos hc]
        rfl
      rw [hs]
      exact ih h.2
    . have hs : Reader.step? Reader.initial c = none := by
        show (if Reader.isBlank c then _ else _) = _
        rw [if_neg hc]
        exact startValue?_of_isBlank h.1 []
      rw [hs]
      exact ⟨_, rfl⟩

theorem parse?_of_isBlankLine (h : isBlankLine text) : parse? text = none := by
  unfold isBlankLine at h
  rw [String.all_bool_eq] at h
  rcases advance_of_isBlank text.toList h with ⟨rest, ha⟩
  unfold parse? read
  rw [ha]
  cases rest with
  | nil => rfl
  | cons _ _ => rfl

end Json

theorem Rpc.Incoming.ofLine_of_isBlankLine (h : isBlankLine text) : ofLine text = .error .malformed := by
  unfold ofLine
  rw [Json.parse?_of_isBlankLine h]

/-! ## The latest of a list -/

/-- The queue is the longest suffix of a list that is within a limit. -/
structure IsLongestSuffix (limit : Nat) (queue all : List α) : Prop where
  suffix : queue <:+ all
  length_le : queue.length ≤ limit
  longest : ∀ other, other <:+ all → other.length ≤ limit → other.length ≤ queue.length

def latest (limit : Nat) (all : List α) : List α :=
  all.drop (all.length - limit)

theorem isLongestSuffix_latest (limit : Nat) (all : List α) : IsLongestSuffix limit (latest limit all) all where
  suffix := List.drop_suffix _ _
  length_le := by
    unfold latest
    rw [List.length_drop]
    omega
  longest other hs hl := by
    have := hs.length_le
    unfold latest
    rw [List.length_drop]
    omega

theorem latest_latest_append {limit : Nat} (h : 1 ≤ limit) (all : List α) (x : α) :
    latest limit (latest limit all ++ [x]) = latest limit (all ++ [x]) := by
  have hd : latest limit all ++ [x] = (all ++ [x]).drop (all.length - limit) :=
    (List.drop_append_of_le_length (by omega)).symm
  rw [hd]
  unfold latest
  rw [List.drop_drop, List.length_drop, List.length_append, List.length_singleton]
  congr 1
  omega

namespace Channel

theorem answer_keeps (c : Channel) (response : Rpc.Response) :
    (c.answer response).isReading = c.isReading ∧ (c.answer response).notifications = c.notifications ∧
      (c.answer response).outbound = c.outbound := by
  unfold answer
  split
  . exact ⟨rfl, rfl, rfl⟩
  . split <;> exact ⟨rfl, rfl, rfl⟩

theorem enqueue_eq (capacity : Nat) (queue : List Rpc.Notification) (n : Rpc.Notification) :
    enqueue capacity queue n = latest (max capacity 1) (queue ++ [n]) := by
  unfold enqueue latest
  rw [List.length_append, List.length_singleton, List.drop_append_of_le_length (by omega)]

end Channel

/-! ## What comes in -/

/-- What can happen to a channel that only reads. -/
inductive Occurrence where
  | line (text : String)
  | drain

namespace Occurrence

def isDrain : Occurrence → Bool
  | line _ => false
  | drain => true

def message? : Occurrence → Option Rpc.Incoming
  | line text => (Rpc.Incoming.ofLine text).toOption
  | drain => none

def responseTo? (id : UInt64) (o : Occurrence) : Option Rpc.Response :=
  match o.message? with
  | some (.response r) => if r.id? = some id then some r else none
  | _ => none

def notification? (o : Occurrence) : Option Rpc.Notification :=
  match o.message? with
  | some (.notification n) => some n
  | _ => none

/-- The identifier and the method of a request of the server. -/
def request? (o : Occurrence) : Option (Json × String) :=
  match o.message? with
  | some (.request id method _) => some (id, method)
  | _ => none

/-- The first response to a request. -/
def firstTo? (id : UInt64) (os : List Occurrence) : Option Rpc.Response :=
  os.findSome? (responseTo? id)

/-- The notifications since the last time they were drained. -/
def undrained (os : List Occurrence) : List Rpc.Notification :=
  (os.reverse.takeWhile (!·.isDrain)).reverse.filterMap notification?

theorem undrained_append (os : List Occurrence) (o : Occurrence) :
    undrained (os ++ [o]) = if o.isDrain then [] else undrained os ++ o.notification?.toList := by
  unfold undrained
  rw [List.reverse_append, List.reverse_singleton, List.singleton_append, List.takeWhile_cons]
  cases o.isDrain with
  | true => rfl
  | false =>
    show ((o :: _).reverse).filterMap notification? = _
    rw [List.reverse_cons, List.filterMap_append]
    rfl

end Occurrence

open Occurrence

structure Reader where
  channel : Channel
  /-- What each drain has taken, the oldest first. -/
  drained : List (List Rpc.Notification)

namespace Reader

/-- A reader of a channel on which some requests wait. -/
def start (ids : List UInt64) : Reader :=
  ⟨{ Channel.start with pending := ids }, []⟩

def occur (r : Reader) : Occurrence → Reader
  | .line text => { r with channel := r.channel.deliver text }
  | .drain => ⟨r.channel.drain.2, r.drained ++ [r.channel.drain.1]⟩

def follow (r : Reader) (os : List Occurrence) : Reader :=
  os.foldl occur r

/-- The line is blank or no message, or a response that nobody waits for. -/
inductive IsIdle (r : Reader) (text : String) : Prop where
  | blank (h : isBlankLine text)
  | malformed (h : Rpc.Incoming.ofLine text = .error fault)
  | orphaned (h : Rpc.Incoming.ofLine text = .ok (.response response))
    (hn : ∀ id, response.id? = some id → id ∉ r.channel.pending)

/-- The second list is what is left of the first one after some idle lines have been taken out. -/
inductive Pruned : Reader → List Occurrence → List Occurrence → Prop where
  | nil : Pruned r [] []
  | keep (o : Occurrence) (rest : Pruned (r.occur o) os fewer) : Pruned r (o :: os) (o :: fewer)
  | omit (h : r.IsIdle text) (rest : Pruned (r.occur (.line text)) os fewer) : Pruned r (.line text :: os) fewer

variable {ids : List UInt64} {os : List Occurrence} {r : Reader}

theorem hears?_of_isReading {c : Channel} (h : c.isReading) (text : String) :
    c.hears? text = (line text).message? := by
  unfold Channel.hears?
  rw [h]
  by_cases hb : isBlankLine text
  . have hm : (line text).message? = none := congrArg Except.toOption (Rpc.Incoming.ofLine_of_isBlankLine hb)
    unfold isBlankLine at hb
    rw [String.all_bool_eq] at hb
    simp [hb, hm]
  . unfold isBlankLine at hb
    rw [String.all_bool_eq] at hb
    simp [hb, message?]

theorem channel_occur_line (h : r.channel.isReading) (text : String) :
    (r.occur (line text)).channel = match (line text).message? with
      | some message => r.channel.receive message
      | none => r.channel := by
  have hd := Channel.deliver_eq r.channel text
  rw [hears?_of_isReading h] at hd
  exact hd

section Step

variable {o : Occurrence} {c : Channel}

theorem firstTo?_append (id : UInt64) (os : List Occurrence) (o : Occurrence) :
    firstTo? id (os ++ [o]) = (firstTo? id os).or (o.responseTo? id) := by
  unfold firstTo?
  rw [List.findSome?_append]
  simp

/-- Who waits, and who was answered. -/
structure Serves (ids : List UInt64) (os : List Occurrence) (c : Channel) : Prop where
  pending : ∀ id, id ∈ c.pending ↔ id ∈ ids ∧ firstTo? id os = none
  answers : ∀ id, c.answers.lookup id = if id ∈ ids then firstTo? id os else none
  nodup : (c.answers.map Prod.fst).Nodup

theorem Serves.append (h : Serves ids os c) (he : ∀ id ∈ ids, firstTo? id (os ++ [o]) = firstTo? id os) :
    Serves ids (os ++ [o]) c where
  pending id := (h.pending id).trans (and_congr_right fun hi => by rw [he id hi])
  answers id := by
    rw [h.answers]
    split
    . next hi => rw [he id hi]
    . rfl
  nodup := h.nodup

theorem Serves.append_of_none (h : Serves ids os c) (hn : ∀ id, o.responseTo? id = none) :
    Serves ids (os ++ [o]) c := by
  apply h.append
  intro id _
  rw [firstTo?_append, hn, Option.or_none]

theorem Serves.not_mem_answers {id : UInt64} (h : Serves ids os c) (hp : id ∈ c.pending) :
    id ∉ c.answers.map Prod.fst := by
  have hl := h.answers id
  rw [((h.pending id).mp hp).2, ite_self] at hl
  intro hm
  rcases List.mem_map.mp hm with ⟨entry, he, hi⟩
  have := List.lookup_eq_none_iff.mp hl entry he
  simp [hi] at this

theorem Serves.answer (h : Serves ids os c) (hm : o.message? = some (.response response)) :
    Serves ids (os ++ [o]) (c.answer response) := by
  have hr : ∀ id, o.responseTo? id = if response.id? = some id then some response else none := by
    intro id
    unfold responseTo?
    rw [hm]
  by_cases hp : ∃ id, response.id? = some id ∧ id ∈ c.pending
  . rcases hp with ⟨id, hi, hp⟩
    rcases (h.pending id).mp hp with ⟨hids, hnone⟩
    rw [Channel.answer_of_mem hi hp]
    constructor
    . intro other
      rw [firstTo?_append, hr, hi]
      show other ∈ c.pending.filter _ ↔ _
      rw [List.mem_filter, h.pending]
      by_cases he : other = id
      . simp [he]
      . simp [he, Ne.symm he]
    . intro other
      rw [firstTo?_append, hr, hi, List.lookup_cons, h.answers]
      by_cases he : other = id
      . simp [he, hids, hnone]
      . simp [Ne.symm he, beq_false_of_ne he]
    . exact List.nodup_cons.mpr ⟨h.not_mem_answers hp, h.nodup⟩
  . -- Whoever the response is for has been given one before.
    rw [Channel.answer_of_not_mem fun id hi hm => hp ⟨id, hi, hm⟩]
    apply h.append
    intro id hids
    rw [firstTo?_append, hr]
    split
    . next hi =>
      cases hf : firstTo? id os with
      | none => exact absurd ⟨id, hi, (h.pending id).mpr ⟨hids, hf⟩⟩ hp
      | some _ => rfl
    . rw [Option.or_none]

end Step

/-- The state of the channel after what has occurred. -/
structure Tracks (ids : List UInt64) (os : List Occurrence) (c : Channel) : Prop extends Serves ids os c where
  isReading : c.isReading
  notifications : c.notifications = latest Channel.capacity (undrained os)
  outbound : c.outbound = (os.filterMap request?).map fun (id, method) => Channel.line (Channel.reply id method)

theorem tracks_start (ids : List UInt64) : Tracks ids [] (start ids).channel where
  isReading := rfl
  pending id := by simp [start, firstTo?]
  answers id := by simp [start, firstTo?, Channel.start]
  nodup := .nil
  notifications := rfl
  outbound := rfl

section Track

variable {c : Channel} {o : Occurrence}

theorem Tracks.drain (h : Tracks ids os c) : Tracks ids (os ++ [.drain]) c.drain.2 where
  toServes := by
    have hs := h.toServes.append_of_none (o := .drain) fun _ => rfl
    exact ⟨hs.pending, hs.answers, hs.nodup⟩
  isReading := h.isReading
  notifications := by
    have hu : undrained (os ++ [.drain]) = [] := undrained_append os .drain
    rw [hu]
    exact List.drop_nil.symm
  outbound := by
    rw [List.filterMap_append, List.map_append]
    exact h.outbound.trans (List.append_nil _).symm

theorem Tracks.pass (h : Tracks ids os c) (ho : o.isDrain = false) (hm : o.message? = none) :
    Tracks ids (os ++ [o]) c where
  toServes := h.toServes.append_of_none fun _ => by simp [responseTo?, hm]
  isReading := h.isReading
  notifications := by simp [undrained_append, ho, notification?, hm, h.notifications]
  outbound := by simp [request?, hm, h.outbound]

theorem Tracks.receive (h : Tracks ids os c) (ho : o.isDrain = false) (hm : o.message? = some message) :
    Tracks ids (os ++ [o]) (c.receive message) := by
  cases message with
  | response r =>
    rcases Channel.answer_keeps c r with ⟨hreading, hnotifications, houtbound⟩
    refine ⟨h.toServes.answer hm, hreading.trans h.isReading, hnotifications.trans ?_, houtbound.trans ?_⟩
    . simp [undrained_append, ho, notification?, hm, h.notifications]
    . simp [request?, hm, h.outbound]
  | notification n =>
    have hs := h.toServes.append_of_none (o := o) fun _ => by simp [responseTo?, hm]
    have hc : 1 ≤ Channel.capacity := by decide
    have hu : undrained (os ++ [o]) = undrained os ++ [n] := by simp [undrained_append, ho, notification?, hm]
    have hq : Channel.enqueue Channel.capacity c.notifications n =
        latest Channel.capacity (undrained (os ++ [o])) := by
      rw [Channel.enqueue_eq, Nat.max_eq_left hc, h.notifications, hu, latest_latest_append hc]
    have ho : c.outbound = ((os ++ [o]).filterMap request?).map fun (id, method) =>
        Channel.line (Channel.reply id method) := by simp [request?, hm, h.outbound]
    show Tracks ids (os ++ [o]) { c with notifications := Channel.enqueue Channel.capacity c.notifications n }
    -- The capacity is a numeral that must not be counted down.
    generalize Channel.enqueue Channel.capacity c.notifications n = queue at hq ⊢
    exact ⟨⟨hs.pending, hs.answers, hs.nodup⟩, h.isReading, hq, ho⟩
  | request id method params =>
    have hs := h.toServes.append_of_none (o := o) fun _ => by simp [responseTo?, hm]
    refine ⟨⟨hs.pending, hs.answers, hs.nodup⟩, h.isReading, ?_, ?_⟩
    . exact h.notifications.trans (by simp [undrained_append, ho, notification?, hm])
    . show c.outbound ++ [Channel.line (Channel.reply id method)] = _
      simp [request?, hm, h.outbound]

theorem Tracks.occur (h : Tracks ids os r.channel) (o : Occurrence) :
    Tracks ids (os ++ [o]) (r.occur o).channel := by
  cases o with
  | drain => exact h.drain
  | line text =>
    rw [channel_occur_line h.isReading]
    split
    . next hm => exact h.receive rfl hm
    . next hm => exact h.pass rfl hm

theorem Tracks.follow (h : Tracks ids before r.channel) (os : List Occurrence) :
    Tracks ids (before ++ os) (r.follow os).channel := by
  induction os generalizing before r with
  | nil => rwa [List.append_nil]
  | cons o rest ih =>
    rw [← List.singleton_append, ← List.append_assoc]
    exact ih (h.occur o)

end Track

/-! ## Lines that make no difference -/

theorem IsIdle.occur_eq (h : r.IsIdle text) : r.occur (.line text) = r := by
  have hc : r.channel.deliver text = r.channel := by
    cases h with
    | blank h =>
      unfold Channel.deliver
      rw [h, Bool.or_true, if_pos rfl]
    | malformed h =>
      unfold Channel.deliver
      rw [h, ite_self]
    | orphaned h hn => exact Channel.deliver_orphaned r.channel h hn
  show { r with channel := r.channel.deliver text } = r
  rw [hc]

theorem Pruned.follow_eq (h : Pruned r os fewer) : r.follow fewer = r.follow os := by
  induction h with
  | nil => rfl
  | keep o _ ih => exact ih
  | «omit» h _ ih =>
    rw [h.occur_eq] at ih
    show _ = (Reader.occur _ _).follow _
    rw [h.occur_eq]
    exact ih

/--
What the reader does with any traffic, for any requests that wait. Each of them is given the first response with
its identifier, if there is one, and waits on otherwise; nobody else is given anything. The queue has the latest
notifications since they were drained, and each drain takes all that is in it. Each request of the server is
replied to, in order and under its own identifier. All of this stays as it is if lines are taken out that are
blank or no messages, or responses that nobody waits for at that point.
-/
theorem traffic_sorted (ids : List UInt64) (os : List Occurrence) :
    let r := (start ids).follow os
    (∀ id, r.channel.answers.lookup id = if id ∈ ids then firstTo? id os else none)
    ∧ (r.channel.answers.map Prod.fst).Nodup
    ∧ (∀ id, id ∈ r.channel.pending ↔ id ∈ ids ∧ firstTo? id os = none)
    ∧ IsLongestSuffix 1024 r.channel.notifications (undrained os)
    ∧ r.occur .drain = ⟨{ r.channel with notifications := [] }, r.drained ++ [r.channel.notifications]⟩
    ∧ (∀ capacity queue n,
        IsLongestSuffix (max capacity 1) (Channel.enqueue capacity queue n) (queue ++ [n]))
    ∧ r.channel.outbound =
        (os.filterMap request?).map (fun (id, method) => Channel.line (Channel.reply id method))
    ∧ (∀ id, Channel.reply id "ping" = .success id (.object []))
    ∧ (∀ id method, method ≠ "ping" →
        Channel.reply id method = .failure id (-32601) s!"Method not found: {method}")
    ∧ ∀ fewer, Pruned (start ids) os fewer → (start ids).follow fewer = r := by
  intro r
  have h : Tracks ids os r.channel := (tracks_start ids).follow os
  refine ⟨h.answers, h.nodup, h.pending, ?_, rfl, ?_, h.outbound, fun _ => rfl, ?_, ?_⟩
  . rw [h.notifications]
    apply isLongestSuffix_latest
  . intro capacity queue n
    rw [Channel.enqueue_eq]
    apply isLongestSuffix_latest
  . intro id method hm
    unfold Channel.reply
    rw [if_neg hm]
    rfl
  . intro fewer hp
    exact hp.follow_eq

namespace Sample

def response (id result : String) : Occurrence :=
  .line ("\x7b\"jsonrpc\":\"2.0\",\"id\":" ++ id ++ ",\"result\":" ++ result ++ "\x7d")

def early : Occurrence :=
  .line "\x7b\"method\":\"early\"\x7d"

def ping : Occurrence :=
  .line "\x7b\"id\":\"x\",\"method\":\"ping\"\x7d"

/-- Nobody has ever waited for the first response, and nobody waits any more for the last one. -/
def traffic : List Occurrence :=
  [response "4" "0", response "3" "1", .line " ", early, .drain, .line "hello", ping, response "3" "2"]

def relevant : List Occurrence :=
  [response "3" "1", early, .drain, ping]

end Sample

theorem traffic_sorted_garbled :
    Pruned (start [3, 5]) Sample.traffic Sample.relevant
    ∧ (start [3, 5]).follow Sample.relevant = (start [3, 5]).follow Sample.traffic
    ∧ ((start [3, 5]).follow Sample.traffic).channel.answers.lookup 3 = some (.success 3 1) := by
  have hn : 3 ∉ ((start [3, 5]).follow (Sample.traffic.take 7)).channel.pending := by
    rw [((tracks_start [3, 5]).follow _).pending]
    decide +kernel
  have hb : isBlankLine " " := by
    unfold isBlankLine
    rw [String.all_bool_eq]
    decide +kernel
  have hfour : Rpc.Incoming.ofLine "\x7b\"jsonrpc\":\"2.0\",\"id\":4,\"result\":0\x7d" =
      .ok (.response (.success 4 0)) := by decide +kernel
  have hhello : Rpc.Incoming.ofLine "hello" = .error .malformed := by decide +kernel
  have hthree : Rpc.Incoming.ofLine "\x7b\"jsonrpc\":\"2.0\",\"id\":3,\"result\":2\x7d" =
      .ok (.response (.success 3 2)) := by decide +kernel
  have hp : Pruned (start [3, 5]) Sample.traffic Sample.relevant := by
    refine .omit (.orphaned hfour ?_) <| .keep _ <| .omit (.blank hb) <| .keep _ <| .keep _ <|
      .omit (.malformed hhello) <| .keep _ <| .omit (.orphaned hthree ?_) .nil
    . intro id hi
      cases hi
      decide
    . intro id hi
      cases hi
      exact hn
  rcases traffic_sorted [3, 5] Sample.traffic with ⟨hanswers, _, _, _, _, _, _, _, _, hpruned⟩
  refine ⟨hp, hpruned _ hp, ?_⟩
  rw [hanswers]
  decide +kernel

end Reader

end Turnstile
