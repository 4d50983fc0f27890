import Mathlib.Data.List.Nodup
import Turnstile.Proofs.Bridge.Exchange

/-!
This module contains the correlation of responses with requests, for all orders in which the steps of any
number of requests, the lines of the server and the end of the channel can follow one another.
-/

namespace Turnstile

namespace Exchange

/-- The line at the position is a response with the identifier. -/
def Hears (e : Exchange) (position : Nat) (id : UInt64) (r : Rpc.Response) : Prop :=
  ∃ text, e.heard[position]? = some text ∧ Rpc.Incoming.ofLine text = .ok (.response r) ∧
    r.id? = some id

/-- Is the outcome one that only a response gives? -/
def isServed : Except BridgeError Json → Bool
  | .ok _ | .error (.rpc ..) => true
  | _ => false

/-- The request was sent, and the outcome is that of the response which was routed to it. -/
def Serves (e : Exchange) (a : Asking) (outcome : Except BridgeError Json) : Prop :=
  .request a.request ∈ e.sent ∧
    ∃ position r, (a.id, position) ∈ e.routes ∧ e.Hears position a.id r ∧
      outcome = Channel.outcome a.request r

structure Sound (e : Exchange) : Prop where
  ids : e.asks.map Asking.id = (List.range e.asks.length).map fun n => UInt64.ofNat (n + 1)
  nextId : e.channel.nextId = UInt64.ofNat (e.asks.length + 1)
  pending_nodup : e.channel.pending.Nodup
  pending : ∀ id ∈ e.channel.pending, ∃ a ∈ e.asks, a.id = id ∧ a.progress.isEnrolled
  routes_nodup : (e.routes.map Prod.fst).Nodup
  positions_nodup : (e.routes.map Prod.snd).Nodup
  routed : ∀ route ∈ e.routes, route.1 ∉ e.channel.pending ∧
    (∃ a ∈ e.asks, a.id = route.1 ∧ !a.progress.isDrawn) ∧ ∃ r, e.Hears route.2 route.1 r
  answers : ∀ id r, (id, r) ∈ e.channel.answers →
    ∃ position, (id, position) ∈ e.routes ∧ e.Hears position id r
  sent_nodup : (e.sent.filterMap Letter.id?).Nodup
  sent : ∀ r, .request r ∈ e.sent → ∃ a ∈ e.asks, a.request = r ∧ a.progress.isSent
  posted : ∀ a ∈ e.asks, a.progress.isSent → a.progress.isDone = false → .request a.request ∈ e.sent
  served : ∀ a ∈ e.asks, ∀ outcome, a.progress = .done outcome → isServed outcome →
    e.Serves a outcome
  lines : (e.wire ++ e.channel.outbound).Sublist (e.sent.map Letter.text)

variable {e : Exchange}

variable {id : UInt64}

theorem Hears.lt_length (h : e.Hears position id r) : position < e.heard.length := by
  rcases h with ⟨text, hp, _⟩
  exact (List.getElem?_eq_some_iff.mp hp).1

theorem Hears.listen (h : e.Hears position id r) (text : String) : (e.listen text).Hears position id r := by
  have hl := h.lt_length
  rcases h with ⟨line, hp, h⟩
  refine ⟨line, ?_, h⟩
  show (e.heard ++ [text])[position]? = some line
  rw [List.getElem?_append_left hl]
  exact hp

theorem sound_start : start.Sound := by
  constructor <;> simp [start, Channel.start]

namespace Sound

theorem ids_nodup (h : e.Sound) (hb : e.asks.length ≤ UInt64.size) : (e.asks.map Asking.id).Nodup := by
  rw [h.ids]
  -- Identifiers come again only after so many requests.
  apply List.Nodup.map_on _ List.nodup_range
  intro m hm n hn he
  rw [List.mem_range] at hm hn
  have := congrArg UInt64.toNat he
  rw [UInt64.toNat_ofNat', UInt64.toNat_ofNat'] at this
  unfold UInt64.size at hb
  omega

theorem eq_of_id_eq (h : e.Sound) (hb : e.asks.length ≤ UInt64.size) (ha : a ∈ e.asks) (hc : b ∈ e.asks)
    (hi : a.id = b.id) : a = b :=
  List.inj_on_of_nodup_map (h.ids_nodup hb) ha hc hi

theorem not_mem_pending (h : e.Sound) (hb : e.asks.length ≤ UInt64.size) (ha : a ∈ e.asks)
    (hp : a.progress.isEnrolled = false) : a.id ∉ e.channel.pending := by
  intro hm
  rcases h.pending _ hm with ⟨b, hc, hi, he⟩
  rw [h.eq_of_id_eq hb hc ha hi, hp] at he
  cases he

theorem not_mem_routes (h : e.Sound) (hb : e.asks.length ≤ UInt64.size) (ha : a ∈ e.asks)
    (hp : a.progress.isDrawn) : a.id ∉ e.routes.map Prod.fst := by
  intro hm
  rcases List.mem_map.mp hm with ⟨route, hr, hi⟩
  rcases (h.routed route hr).2.1 with ⟨b, hc, hj, he⟩
  rw [h.eq_of_id_eq hb hc ha (hj.trans hi), hp] at he
  cases he

theorem not_mem_sent (h : e.Sound) (hb : e.asks.length ≤ UInt64.size) (ha : a ∈ e.asks)
    (hp : a.progress.isSent = false) : a.id ∉ e.sent.filterMap Letter.id? := by
  intro hm
  rcases List.mem_filterMap.mp hm with ⟨letter, hl, hi⟩
  cases letter with
  | request r =>
    rcases h.sent r hl with ⟨b, hc, hr, he⟩
    have hi : b.id = a.id := by
      unfold Asking.id
      rw [hr]
      exact Option.some.inj hi
    rw [h.eq_of_id_eq hb hc ha hi, hp] at he
    cases he
  | notification _ | reply _ => cases hi

theorem lines_write (h : e.Sound) (letter : Letter) :
    ((e.write letter).wire ++ (e.write letter).channel.outbound).Sublist
      ((e.write letter).sent.map Letter.text) := by
  show (e.wire ++ (e.channel.outbound ++ [letter.text])).Sublist ((e.sent ++ [letter]).map Letter.text)
  rw [← List.append_assoc, List.map_append]
  exact h.lines.append_right _

/-! ## What happens to the channel -/

theorem withdraw (h : e.Sound) (id : UInt64) : (e.on (e.channel.withdraw id)).Sound := by
  have hp : ∀ other ∈ (e.channel.withdraw id).pending, other ∈ e.channel.pending := by
    intro other hm
    exact (List.mem_filter.mp hm).1
  refine { h with pending_nodup := ?_, pending := ?_, routed := ?_ }
  . exact h.pending_nodup.filter _
  . intro other hm
    exact h.pending other (hp other hm)
  . intro route hr
    refine ⟨?_, (h.routed route hr).2⟩
    intro hm
    exact (h.routed route hr).1 (hp _ hm)

theorem release (h : e.Sound) : (e.on e.channel.release).Sound := by
  refine { h with pending_nodup := ?_, pending := ?_, routed := ?_ }
  . exact List.nodup_nil
  . intro id hm
    cases hm
  . intro route hr
    exact ⟨List.not_mem_nil, (h.routed route hr).2⟩

theorem forget (h : e.Sound) (answers : List (UInt64 × Rpc.Response))
    (hs : ∀ entry ∈ answers, entry ∈ e.channel.answers) :
    (e.on { e.channel with answers }).Sound := by
  refine { h with answers := ?_ }
  intro id r hm
  exact h.answers id r (hs _ hm)

theorem discard (h : e.Sound) : (e.on e.channel.discard).Sound := by
  refine { h with lines := ?_ }
  apply List.Sublist.trans _ h.lines
  apply List.Sublist.append_left
  apply List.nil_sublist

theorem take (h : e.Sound) : e.take.Sound := by
  unfold Exchange.take
  split
  . exact h
  . next line rest ho =>
    refine { h with lines := ?_ }
    show ((e.wire ++ [line]) ++ rest).Sublist _
    rw [List.append_assoc, List.singleton_append, ← ho]
    exact h.lines

theorem enroll (h : e.Sound) (ha : a ∈ e.asks) (hp : a.progress.isEnrolled)
    (hn : a.id ∉ e.channel.pending) (hr : a.id ∉ e.routes.map Prod.fst) :
    (e.on (e.channel.enroll a.id)).Sound := by
  refine { h with pending_nodup := ?_, pending := ?_, routed := ?_ }
  . apply List.nodup_cons.mpr
    exact ⟨hn, h.pending_nodup⟩
  . intro id hm
    cases hm with
    | head => exact ⟨a, ha, rfl, hp⟩
    | tail _ hm => exact h.pending id hm
  . intro route hm
    refine ⟨?_, (h.routed route hm).2⟩
    intro hi
    rcases List.mem_cons.mp hi with hi | hi
    . apply hr
      rw [← hi]
      exact List.mem_map_of_mem hm
    . exact (h.routed route hm).1 hi

theorem write (h : e.Sound) (hl : letter.id? = none) : (e.write letter).Sound := by
  have hs : ∀ r, .request r ∈ e.sent ++ [letter] → .request r ∈ e.sent := by
    intro r hm
    rcases List.mem_append.mp hm with hm | hm
    . exact hm
    . cases List.mem_singleton.mp hm
      cases hl
  refine { h with sent_nodup := ?_, sent := ?_, posted := ?_, served := ?_, lines := ?_ }
  . show ((e.sent ++ [letter]).filterMap Letter.id?).Nodup
    rw [List.filterMap_append, List.filterMap_cons_none hl]
    simpa using h.sent_nodup
  . intro r hm
    exact h.sent r (hs r hm)
  . intro a ha hp hd
    exact List.mem_append_left _ (h.posted a ha hp hd)
  . intro a ha outcome hp ho
    rcases h.served a ha outcome hp ho with ⟨hm, hr⟩
    exact ⟨List.mem_append_left _ hm, hr⟩
  . exact h.lines_write letter

/-! ## The steps of a request -/

theorem ids_put (h : e.asks[n]? = some a) :
    (e.put n a progress).asks.map Asking.id = e.asks.map Asking.id := by
  have := congrArg (List.map Rpc.Request.id) (requests_put h progress)
  rw [List.map_map, List.map_map] at this
  exact this

theorem preserve_ids (h : e.Sound) (ha : e.asks[n]? = some a) :
    (e.put n a progress).asks.map Asking.id =
      (List.range (e.put n a progress).asks.length).map fun n => UInt64.ofNat (n + 1) := by
  rw [ids_put ha, h.ids]
  show _ = (List.range (e.asks.set n _).length).map _
  rw [List.length_set]

theorem preserve_nextId (h : e.Sound) :
    e.channel.nextId = UInt64.ofNat ((e.put n a progress).asks.length + 1) := by
  show _ = UInt64.ofNat ((e.asks.set n _).length + 1)
  rw [List.length_set]
  exact h.nextId

theorem preserve_pending (h : e.Sound) (ha : e.asks[n]? = some a)
    (he : a.id ∈ e.channel.pending → progress.isEnrolled) :
    ∀ id ∈ e.channel.pending, ∃ b ∈ (e.put n a progress).asks, b.id = id ∧ b.progress.isEnrolled := by
  intro id hm
  rcases h.pending id hm with ⟨b, hb, hi, hp⟩
  rcases eq_or_mem_put ha hb with hc | hc
  . subst hc
    subst hi
    exact ⟨_, mem_put ha, rfl, he hm⟩
  . exact ⟨b, hc, hi, hp⟩

theorem preserve_routed (h : e.Sound) (ha : e.asks[n]? = some a) (hd : progress.isDrawn = false) :
    ∀ route ∈ e.routes, route.1 ∉ e.channel.pending ∧
      (∃ b ∈ (e.put n a progress).asks, b.id = route.1 ∧ !b.progress.isDrawn) ∧
      ∃ r, e.Hears route.2 route.1 r := by
  intro route hr
  rcases h.routed route hr with ⟨hn, ⟨b, hb, hi, hp⟩, hl⟩
  refine ⟨hn, ?_, hl⟩
  rcases eq_or_mem_put ha hb with hc | hc
  . subst hc
    exact ⟨_, mem_put ha, hi, by simp [hd]⟩
  . exact ⟨b, hc, hi, hp⟩

theorem preserve_sent (h : e.Sound) (ha : e.asks[n]? = some a)
    (hs : .request a.request ∈ e.sent → progress.isSent) :
    ∀ r, .request r ∈ e.sent →
      ∃ b ∈ (e.put n a progress).asks, b.request = r ∧ b.progress.isSent := by
  intro r hr
  rcases h.sent r hr with ⟨b, hb, hi, hp⟩
  rcases eq_or_mem_put ha hb with hc | hc
  . subst hc
    subst hi
    exact ⟨_, mem_put ha, rfl, hs hr⟩
  . exact ⟨b, hc, hi, hp⟩

theorem put (h : e.Sound) (ha : e.asks[n]? = some a)
    (he : a.id ∈ e.channel.pending → progress.isEnrolled) (hd : progress.isDrawn = false)
    (hs : .request a.request ∈ e.sent → progress.isSent)
    (hp : progress.isSent → progress.isDone = false → .request a.request ∈ e.sent)
    (ho : ∀ outcome, progress = .done outcome → isServed outcome → e.Serves a outcome) :
    (e.put n a progress).Sound := by
  refine { h with
    ids := h.preserve_ids ha, nextId := h.preserve_nextId, pending := h.preserve_pending ha he,
    routed := h.preserve_routed ha hd, sent := h.preserve_sent ha hs, posted := ?_, served := ?_ }
  . intro b hb hs' hd'
    rcases mem_of_mem_put hb with hc | hc
    . subst hc
      exact hp hs' hd'
    . exact h.posted b hc hs' hd'
  . intro b hb outcome hq hr
    rcases mem_of_mem_put hb with hc | hc
    . subst hc
      exact ho outcome hq hr
    . exact h.served b hc outcome hq hr

theorem post (h : e.Sound) (hb : e.asks.length ≤ UInt64.size) (ha : e.asks[n]? = some a)
    (hp : a.progress = .cleared) : ((e.put n a .waiting).write (.request a.request)).Sound := by
  have hn := h.not_mem_sent hb (List.mem_of_getElem? ha) (by rw [hp]; rfl)
  refine { h with
    ids := h.preserve_ids ha, nextId := h.preserve_nextId,
    pending := h.preserve_pending ha (fun _ => rfl), routed := h.preserve_routed ha rfl,
    sent_nodup := ?_, sent := ?_, posted := ?_, served := ?_, lines := h.lines_write _ }
  . show ((e.sent ++ [Letter.request a.request]).filterMap Letter.id?).Nodup
    rw [List.filterMap_append]
    apply h.sent_nodup.append (List.nodup_singleton a.id)
    simpa using hn
  . intro r hr
    rcases List.mem_append.mp hr with hr | hr
    . exact h.preserve_sent ha (fun _ => rfl) r hr
    . cases List.mem_singleton.mp hr
      exact ⟨_, mem_put ha, rfl, rfl⟩
  . intro b hm hs hd
    rcases mem_of_mem_put hm with hc | hc
    . subst hc
      exact List.mem_append_right _ (.head _)
    . exact List.mem_append_left _ (h.posted b hc hs hd)
  . intro b hm outcome hq hr
    rcases mem_of_mem_put hm with hc | hc
    . subst hc
      cases hq
    . rcases h.served b hc outcome hq hr with ⟨hs, hl⟩
      exact ⟨List.mem_append_left _ hs, hl⟩

theorem put_failed (h : e.Sound) (ha : e.asks[n]? = some a) (hn : a.id ∉ e.channel.pending)
    (ho : isServed outcome = false) : (e.put n a (.done outcome)).Sound := by
  apply h.put ha
  . intro hi
    exact absurd hi hn
  . rfl
  . intro _
    rfl
  . intro _ hd
    cases hd
  . intro other hq hs
    cases hq
    rw [ho] at hs
    cases hs

theorem put_unsent (h : e.Sound) (hb : e.asks.length ≤ UInt64.size) (ha : e.asks[n]? = some a)
    (hp : a.progress.isSent = false) (hs : progress.isSent = false) (he : progress.isEnrolled) :
    (e.put n a progress).Sound := by
  have hn := h.not_mem_sent hb (List.mem_of_getElem? ha) hp
  apply h.put ha
  . intro _
    exact he
  . cases progress <;> simp_all [Progress.isEnrolled, Progress.isDrawn]
  . intro hm
    apply absurd _ hn
    exact List.mem_filterMap.mpr ⟨Letter.request a.request, hm, rfl⟩
  . intro hs'
    rw [hs] at hs'
    cases hs'
  . intro outcome hq
    subst hq
    cases hs

theorem put_sent (h : e.Sound) (ha : e.asks[n]? = some a) (hp : a.progress.isSent)
    (hd : a.progress.isDone = false) (hs : progress.isSent) (hn : progress.isDone = false)
    (he : a.id ∈ e.channel.pending → progress.isEnrolled) : (e.put n a progress).Sound := by
  apply h.put ha he
  . cases progress <;> simp_all [Progress.isSent, Progress.isDrawn]
  . intro _
    exact hs
  . intro _ _
    exact h.posted a (List.mem_of_getElem? ha) hp hd
  . intro outcome hq
    subst hq
    cases hn

theorem collect (h : e.Sound) (ha : e.asks[n]? = some a) (hp : a.progress = .waiting)
    (hc : e.channel.collect a.request = (some outcome, c)) :
    ((e.put n a (.done outcome)).on c).Sound := by
  rcases Channel.of_collect hc with ⟨ho, hc', hn⟩ | ⟨r, hr, ho, hc'⟩
  . subst hc'
    apply h.put_failed ha hn
    rw [ho]
    rfl
  . have hs : Letter.request a.request ∈ e.sent :=
      h.posted a (List.mem_of_getElem? ha) (by rw [hp]; rfl) (by rw [hp]; rfl)
    rcases h.answers _ r hr with ⟨position, hm, hl⟩
    subst hc'
    apply Sound.forget (e := e.put n a (.done outcome))
    . apply h.put ha
      . intro hi
        exact absurd hi (h.routed _ hm).1
      . rfl
      . intro _
        rfl
      . intro _ hd
        cases hd
      . intro other hq _
        cases hq
        exact ⟨hs, position, r, hm, hl, ho⟩
    . intro entry hm
      exact (List.mem_filter.mp hm).1

theorem advance (h : e.Sound) (hb : e.asks.length ≤ UInt64.size) (ha : e.asks[n]? = some a) :
    (e.advance n a).Sound := by
  have hm := List.mem_of_getElem? ha
  unfold Exchange.advance
  split
  . next hp =>
    have hn := h.not_mem_pending hb hm (by rw [hp]; rfl)
    have hr := h.not_mem_routes hb hm (by rw [hp]; rfl)
    apply Sound.enroll (a := { a with progress := .registered }) _ (mem_put ha) (by rfl) hn hr
    apply h.put_unsent hb ha _ (by rfl) (by rfl)
    rw [hp]
    rfl
  . next hp =>
    apply h.put_unsent hb ha
    . rw [hp]
      rfl
    . split <;> rfl
    . split <;> rfl
  . next hp => exact h.post hb ha hp
  . next hp => exact (h.withdraw a.id).put_failed ha (Channel.not_mem_withdraw _ _) rfl
  . next hp =>
    split
    . next hc => exact h.collect ha hp hc
    . exact h
  . next hp =>
    have hn := Channel.not_mem_withdraw e.channel a.id
    split
    . apply (h.withdraw a.id).put_sent ha _ _ (by rfl) (by rfl)
      . intro hi
        exact absurd hi hn
      . rw [hp]
        rfl
      . rw [hp]
        rfl
    . exact (h.withdraw a.id).put_failed ha hn rfl
  . next hp =>
    have hn := h.not_mem_pending hb hm (by rw [hp]; rfl)
    split
    . apply h.put_sent ha _ _ (by rfl) (by rfl)
      . intro hi
        exact absurd hi hn
      . rw [hp]
        rfl
      . rw [hp]
        rfl
    . exact h.put_failed ha hn rfl
  . next hp =>
    apply Sound.write _ (by rfl)
    exact h.put_failed ha (h.not_mem_pending hb hm (by rw [hp]; rfl)) rfl
  . exact h

theorem refuse (h : e.Sound) (hb : e.asks.length ≤ UInt64.size) (ha : e.asks[n]? = some a) :
    (e.refuse n a).Sound := by
  have hm := List.mem_of_getElem? ha
  unfold Exchange.refuse
  split
  . next hp =>
    apply h.put_unsent hb ha _ (by rfl) (by rfl)
    rw [hp]
    rfl
  . next hp => exact h.put_failed ha (h.not_mem_pending hb hm (by rw [hp]; rfl)) rfl
  . exact h

theorem lapse (h : e.Sound) (ha : e.asks[n]? = some a) : (e.lapse n a).Sound := by
  unfold Exchange.lapse
  split
  . next hp =>
    apply h.put_sent ha _ _ (by rfl) (by rfl)
    . intro _
      rfl
    . rw [hp]
      rfl
    . rw [hp]
      rfl
  . exact h

/-! ## New requests and lines -/

theorem draw (h : e.Sound) (method : String) (params : Option Json) (limit : Duration) (cancels : Bool) :
    (e.draw method params limit cancels).Sound := by
  have hm : ∀ a ∈ e.asks, a ∈ (e.draw method params limit cancels).asks := by
    intro a ha
    exact List.mem_append_left _ ha
  have hl : (e.draw method params limit cancels).asks.length = e.asks.length + 1 := List.length_append
  refine { h with
    ids := ?_, nextId := ?_, pending := ?_, routed := ?_, sent := ?_, posted := ?_, served := ?_ }
  . rw [hl, List.range_succ, List.map_append, ← h.ids]
    show (e.asks ++ [_]).map Asking.id = _
    rw [List.map_append, List.map_singleton, List.map_singleton, ← h.nextId]
    rfl
  . rw [hl]
    show e.channel.nextId + 1 = _
    rw [h.nextId]
    apply UInt64.toNat_inj.mp
    simp
  . intro id hi
    rcases h.pending id hi with ⟨a, ha, hp⟩
    exact ⟨a, hm a ha, hp⟩
  . intro route hr
    rcases h.routed route hr with ⟨hn, ⟨a, ha, hp⟩, hl⟩
    exact ⟨hn, ⟨a, hm a ha, hp⟩, hl⟩
  . intro r hr
    rcases h.sent r hr with ⟨a, ha, hp⟩
    exact ⟨a, hm a ha, hp⟩
  . intro a ha hs hd
    rcases List.mem_append.mp ha with ha | ha
    . exact h.posted a ha hs hd
    . cases List.mem_singleton.mp ha
      cases hs
  . intro a ha outcome hp hs
    rcases List.mem_append.mp ha with ha | ha
    . exact h.served a ha outcome hp hs
    . cases List.mem_singleton.mp ha
      cases hp

theorem listen (h : e.Sound) (text : String) : (e.listen text).Sound := by
  refine { h with routed := ?_, answers := ?_, served := ?_ }
  . intro route hr
    rcases h.routed route hr with ⟨hn, ha, r, hl⟩
    exact ⟨hn, ha, r, hl.listen text⟩
  . intro id r hm
    rcases h.answers id r hm with ⟨position, hr, hl⟩
    exact ⟨position, hr, hl.listen text⟩
  . intro a ha outcome hp hs
    rcases h.served a ha outcome hp hs with ⟨hm, position, r, hr, hl, ho⟩
    exact ⟨hm, position, r, hr, hl.listen text, ho⟩

theorem route (h : e.Sound) (hp : id ∈ e.channel.pending) (hl : e.Hears position id r)
    (hn : position ∉ e.routes.map Prod.snd) :
    Sound { e with
      channel := { e.channel.withdraw id with answers := (id, r) :: e.channel.answers }
      routes := (id, position) :: e.routes } := by
  have hw := h.withdraw id
  refine { hw with
    routes_nodup := ?_, positions_nodup := ?_, routed := ?_, answers := ?_, served := ?_ }
  . apply List.nodup_cons.mpr
    refine ⟨?_, h.routes_nodup⟩
    intro hm
    rcases List.mem_map.mp hm with ⟨route, hr, hi⟩
    apply (h.routed route hr).1
    rw [hi]
    exact hp
  . apply List.nodup_cons.mpr
    exact ⟨hn, h.positions_nodup⟩
  . intro route hr
    cases hr with
    | head =>
      refine ⟨Channel.not_mem_withdraw _ _, ?_, r, hl⟩
      rcases h.pending id hp with ⟨a, ha, hi, he⟩
      refine ⟨a, ha, hi, ?_⟩
      cases hq : a.progress <;> simp_all [Progress.isEnrolled, Progress.isDrawn]
    | tail _ hr => exact hw.routed route hr
  . intro other answer hm
    cases hm with
    | head => exact ⟨position, .head _, hl⟩
    | tail _ hm =>
      rcases h.answers other answer hm with ⟨place, hr, hl⟩
      exact ⟨place, .tail _ hr, hl⟩
  . intro a ha outcome hq hs
    rcases h.served a ha outcome hq hs with ⟨hm, place, answer, hr, hl, ho⟩
    exact ⟨hm, place, answer, .tail _ hr, hl, ho⟩

theorem queued (h : e.Sound) (notifications : List Rpc.Notification) :
    (e.on { e.channel with notifications }).Sound :=
  { h with }

theorem deliver (h : e.Sound) (text : String) : (e.deliver text).Sound := by
  -- The position of the line is new, so that no other response has it.
  have hn : e.heard.length ∉ e.routes.map Prod.snd := by
    intro hm
    rcases List.mem_map.mp hm with ⟨route, hr, hi⟩
    rcases (h.routed route hr).2.2 with ⟨r, hl⟩
    have := hl.lt_length
    omega
  have ht : (e.listen text).heard[e.heard.length]? = some text := by
    apply List.getElem?_concat_length
  have hs := h.listen text
  unfold Exchange.deliver
  split
  . next message hm =>
    have hl := Channel.ofLine_of_hears hm
    cases message with
    | response r =>
      dsimp only [Channel.receive]
      by_cases hp : ∃ id, r.id? = some id ∧ id ∈ e.channel.pending
      . rcases hp with ⟨id, hi, hp⟩
        rw [Channel.answer_of_mem hi hp, route_of_mem hi hp]
        exact hs.route hp ⟨text, ht, hl, hi⟩ hn
      . have hp : ∀ id, r.id? = some id → id ∉ e.channel.pending := by
          intro id hi hq
          exact hp ⟨id, hi, hq⟩
        rw [Channel.answer_of_not_mem hp, route_of_not_mem hp]
        exact hs
    | request id method _ =>
      have hi : (Letter.reply (Channel.reply id method)).id? = none := rfl
      exact hs.write hi
    | notification n => exact hs.queued _
  . exact hs

theorem follow (h : e.Sound) (hs : ∀ a, e.asks[n]? = some a → (step n a).Sound) :
    (e.follow n step).Sound := by
  unfold Exchange.follow
  split
  . next a ha => exact hs a ha
  . exact h

theorem play (h : e.Sound) (hb : e.asks.length ≤ UInt64.size) (move : Move) : (e.play move).Sound := by
  cases move with
  | draw method params limit cancels => exact h.draw method params limit cancels
  | advance n => exact h.follow fun _ ha => h.advance hb ha
  | refuse n => exact h.follow fun _ ha => h.refuse hb ha
  | lapse n => exact h.follow fun _ ha => h.lapse ha
  | tell notification => exact h.write rfl
  | deliver text => exact h.deliver text
  | drain => exact { h with }
  | take => exact h.take
  | hush => exact { h with }
  | release => exact h.release
  | mute => exact { h with }
  | discard => exact h.discard

end Sound

theorem sound_playAll (h : e.Sound) (moves : List Move) (hb : (e.playAll moves).asks.length ≤ UInt64.size) :
    (e.playAll moves).Sound := by
  induction moves generalizing e with
  | nil => exact h
  | cons move rest ih =>
    -- The bound holds at the end, so that it holds all the time.
    have hl := Nat.le_trans (length_playAll e (move :: rest)) hb
    exact ih (h.play hl move) hb

/-- How responses go to requests. -/
structure Correlated (e : Exchange) : Prop where
  /-- No two requests on the wire have the same identifier. -/
  distinct : ∃ letters : List Letter, e.wire = letters.map Letter.text ∧
    (letters.filterMap Letter.id?).Nodup ∧ ∀ r, .request r ∈ letters → ∃ a ∈ e.asks, a.request = r
  /-- A result, or an error of the server, comes from a line that answers this very request. -/
  served : ∀ a ∈ e.asks, ∀ outcome, a.progress = .done outcome → isServed outcome →
    e.Serves a outcome
  /-- A response that comes while its request waits is what the request gets. -/
  prompt : ∀ n a, e.asks[n]? = some a → a.progress = .waiting → a.id ∈ e.channel.pending →
    ∀ text r, e.channel.hears? text = some (.response r) → r.id? = some a.id →
      (e.playAll [.deliver text, .advance n]).asks[n]? =
        some { a with progress := .done (Channel.outcome a.request r) }
  /-- A line completes no more than one request, which no other line completes. -/
  once : ∀ a ∈ e.asks, ∀ b ∈ e.asks, ∀ m n, (a.id, m) ∈ e.routes → (b.id, n) ∈ e.routes →
    (a = b ↔ m = n)
  /-- A response that nobody waits for changes nothing. -/
  orphaned : ∀ text r, Rpc.Incoming.ofLine text = .ok (.response r) →
    (∀ id, r.id? = some id → id ∉ e.channel.pending) →
    (e.play (.deliver text)).channel = e.channel ∧ (e.play (.deliver text)).asks = e.asks
  /-- A response to one request changes nothing for the others. -/
  aside : ∀ text r id, Rpc.Incoming.ofLine text = .ok (.response r) → r.id? ≠ some id →
    (e.play (.deliver text)).asks = e.asks ∧
    (e.play (.deliver text)).channel.waiting id = e.channel.waiting id
  /-- An entry belongs to a request that has not come to its end, and got no response. -/
  entry : ∀ id ∈ e.channel.pending, ∃ a ∈ e.asks, a.id = id ∧ a.progress.isEnrolled ∧
    ∀ n, (id, n) ∉ e.routes
  /-- A response that comes late is dropped. -/
  late : ∀ a ∈ e.asks, (a.progress.isEnrolled = false ∨ ∃ n, (a.id, n) ∈ e.routes) →
    a.id ∉ e.channel.pending ∧
    ∀ text r, Rpc.Incoming.ofLine text = .ok (.response r) → r.id? = some a.id →
      (e.play (.deliver text)).channel = e.channel

theorem waiting_answer (c : Channel) (hn : r.id? ≠ some id) : (c.answer r).waiting id = c.waiting id := by
  by_cases hp : ∃ other, r.id? = some other ∧ other ∈ c.pending
  . rcases hp with ⟨other, hi, hp⟩
    have ho : id ≠ other := by
      intro he
      apply hn
      rw [hi, he]
    rw [Channel.answer_of_mem hi hp]
    unfold Channel.waiting
    dsimp only
    have hl : ((other, r) :: c.answers).lookup id = c.answers.lookup id := by
      rw [List.lookup_cons, beq_false_of_ne ho]
    have hc : (c.withdraw other).pending.contains id = c.pending.contains id := by
      unfold Channel.withdraw
      simp [ho]
    rw [hl, hc]
  . rw [Channel.answer_of_not_mem]
    intro other hi hm
    exact hp ⟨other, hi, hm⟩

theorem Sound.distinct (h : e.Sound) : ∃ letters : List Letter, e.wire = letters.map Letter.text ∧
    (letters.filterMap Letter.id?).Nodup ∧ ∀ r, .request r ∈ letters → ∃ a ∈ e.asks, a.request = r := by
  have hs := (List.sublist_append_left e.wire e.channel.outbound).trans h.lines
  rcases List.sublist_map_iff.mp hs with ⟨letters, hl, he⟩
  refine ⟨letters, he, h.sent_nodup.sublist (hl.filterMap _), ?_⟩
  intro r hr
  rcases h.sent r (hl.subset hr) with ⟨a, ha, hi, _⟩
  exact ⟨a, ha, hi⟩

theorem Sound.once (h : e.Sound) (hb : e.asks.length ≤ UInt64.size) (ha : a ∈ e.asks) (hc : b ∈ e.asks)
    (hm : (a.id, m) ∈ e.routes) (hn : (b.id, n) ∈ e.routes) : a = b ↔ m = n := by
  constructor
  . intro he
    subst he
    exact congrArg Prod.snd (List.inj_on_of_nodup_map h.routes_nodup hm hn rfl)
  . intro he
    subst he
    exact h.eq_of_id_eq hb ha hc (congrArg Prod.fst (List.inj_on_of_nodup_map h.positions_nodup hm hn rfl))

theorem Sound.gone (h : e.Sound) (hb : e.asks.length ≤ UInt64.size) (ha : a ∈ e.asks)
    (hg : a.progress.isEnrolled = false ∨ ∃ n, (a.id, n) ∈ e.routes) : a.id ∉ e.channel.pending := by
  rcases hg with hp | ⟨n, hr⟩
  . exact h.not_mem_pending hb ha hp
  . exact (h.routed _ hr).1

theorem collect_answer {c : Channel} {request : Rpc.Request} (hi : r.id? = some request.id)
    (hp : request.id ∈ c.pending) : ((c.answer r).collect request).1 = some (Channel.outcome request r) := by
  rw [Channel.answer_of_mem hi hp]
  unfold Channel.collect Channel.waiting
  rw [List.lookup_cons_self]

theorem prompt_deliver (ha : e.asks[n]? = some a) (hw : a.progress = .waiting) (hp : a.id ∈ e.channel.pending)
    (hh : e.channel.hears? text = some (.response r)) (hi : r.id? = some a.id) :
    (e.playAll [.deliver text, .advance n]).asks[n]? =
      some { a with progress := .done (Channel.outcome a.request r) } := by
  have hc := collect_answer hi hp
  have hd : (e.deliver text).channel = e.channel.answer r := by
    rw [channel_deliver, Channel.deliver_eq, hh]
    rfl
  show ((e.deliver text).follow n (e.deliver text).advance).asks[n]? = _
  unfold follow advance
  rw [asks_deliver, ha, hd]
  dsimp only
  rw [hw]
  dsimp only
  split
  . next result c hr =>
    rw [hr] at hc
    cases hc
    show ((e.deliver text).asks.set n _)[n]? = _
    rw [asks_deliver, List.getElem?_set_self (List.getElem?_eq_some_iff.mp ha).1]
  . next hr =>
    rw [hr] at hc
    cases hc

theorem Sound.correlated (h : e.Sound) (hb : e.asks.length ≤ UInt64.size) : e.Correlated := by
  constructor
  . exact h.distinct
  . exact h.served
  . intro n a ha hw hp text r hh hi
    exact prompt_deliver ha hw hp hh hi
  . intro a ha b hc m n
    exact h.once hb ha hc
  . intro text r hl hn
    exact ⟨(channel_deliver e text).trans (Channel.deliver_orphaned _ hl hn), asks_deliver e text⟩
  . intro text r id hl hn
    refine ⟨asks_deliver e text, ?_⟩
    show (e.deliver text).channel.waiting id = _
    rw [channel_deliver]
    rcases Channel.deliver_response e.channel hl with hd | hd
    . rw [hd]
    . rw [hd, waiting_answer _ hn]
  . intro id hm
    rcases h.pending id hm with ⟨a, ha, hi, hp⟩
    refine ⟨a, ha, hi, hp, ?_⟩
    intro n hr
    exact (h.routed _ hr).1 hm
  . intro a ha hg
    have hn := h.gone hb ha hg
    refine ⟨hn, ?_⟩
    intro text r hl hi
    apply (channel_deliver e text).trans
    apply Channel.deliver_orphaned _ hl
    intro id he
    cases hi.symm.trans he
    exact hn

/-- Whatever happens, and in whatever order, responses go to the requests that they are for. -/
theorem responses_correlated (moves : List Move) (h : (start.playAll moves).asks.length ≤ UInt64.size) :
    (start.playAll moves).Correlated :=
  (sound_playAll sound_start moves h).correlated h

namespace Sample

def ask (n : Nat) (method : String) : List Move :=
  [.draw method none (.ofSeconds 1) true, .advance n, .advance n, .advance n]

/-- The third request is answered before the second one, and then again, and the first one too late. -/
def moves : List Move :=
  ask 0 "first" ++ ask 1 "second" ++ ask 2 "third" ++
  [.take, .take, .take,
   .deliver "\x7b\"jsonrpc\":\"2.0\",\"id\":3,\"result\":\"c\"\x7d",
   .deliver "\x7b\"jsonrpc\":\"2.0\",\"id\":9,\"result\":\"x\"\x7d",
   .deliver "\x7b\"jsonrpc\":\"2.0\",\"id\":2,\"result\":\"b\"\x7d",
   .deliver "\x7b\"jsonrpc\":\"2.0\",\"id\":3,\"result\":\"d\"\x7d",
   .advance 1, .advance 2,
   .lapse 0, .advance 0, .advance 0, .advance 0,
   .deliver "\x7b\"jsonrpc\":\"2.0\",\"id\":1,\"result\":\"a\"\x7d"]

end Sample

theorem responses_correlated_late :
    (start.playAll Sample.moves).asks.length ≤ UInt64.size ∧ (start.playAll Sample.moves).Correlated ∧
      (start.playAll Sample.moves).routes = [(2, 2), (3, 0)] ∧
      (start.playAll Sample.moves).asks.map Asking.progress =
        [.done (.error (.timeout (.new 1 "first" none) (.ofSeconds 1))), .done (.ok (.string "b")),
          .done (.ok (.string "c"))] := by
  have h : (start.playAll Sample.moves).asks.length ≤ UInt64.size := by decide +kernel
  refine ⟨h, responses_correlated Sample.moves h, ?_⟩
  decide +kernel

end Exchange

end Turnstile
