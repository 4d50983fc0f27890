import Turnstile.Proofs.Bridge.Listing
import Turnstile.Proofs.Bridge.Prompt
import Turnstile.Proofs.Bridge.Speech

/-!
This module contains what is said in a handshake: how far it can have come, what has been sent then, and what it
comes to.
-/

namespace Turnstile

namespace Listing

/-- The requests of a listing, with the pages that have come for them. -/
inductive Listed (config : BridgeConfig) (id : UInt64) : List Remark → List ToolsPage → Prop where
  | nil : Listed config id [] []
  | page (h : Listed config id said pages) (hp : pageOf (.ok value) = .ok page) :
    Listed config id
      (said ++ [.asked (request id pages) config.timeoutDuration config.cancelOnTimeout (.ok value)]) (pages ++ [page])

variable {config : BridgeConfig} {id : UInt64} {pages : List ToolsPage} {page : ToolsPage} {said front : List Remark}

theorem Listed.requestsOf_eq (h : Listed config id said pages) : requestsOf said = (requests id pages).dropLast := by
  induction h with
  | nil => rfl
  | page h hp ih =>
    rw [requests_concat, List.dropLast_concat, requests_eq, ← ih]
    unfold requestsOf
    rw [List.filterMap_append]
    rfl

theorem Listed.following_eq (h : Listed config id said pages) : following id said = id + .ofNat pages.length := by
  unfold following
  rw [h.requestsOf_eq, List.length_dropLast, length_requests]
  rfl

theorem Listed.leave (h : Listed config id said pages) (hl : Leave said letters) :
    letters = (requests id pages).dropLast.map .request := by
  induction h generalizing letters with
  | nil =>
    cases hl
    rfl
  | @page said pages value page h hp ih =>
    rcases hl.split with ⟨first, second, hf, hs, he⟩
    cases hs.of_singleton with
    | asked hposts =>
      have hr := congrArg (List.map Letter.request) (requests_eq id pages)
      rw [List.map_append] at hr
      rw [he, ih hf, hposts.eq_of_ok rfl, requests_concat, List.dropLast_concat, hr]
      rfl

/-- A listing has come to a page that is yet to be asked for, or to its end. -/
theorem goes_after {rest : Dialogue (Except BridgeError (List Tool))}
    (hg : (after config pages).Goes (following id front) said rest) (hb : ∀ remark ∈ said, remark.isBarred = false)
    (ho : Onward pages) (h : Listed config id front pages) :
    ∃ all answered, Onward all ∧ Listed config id answered all ∧
      ((front ++ said = answered ∧ rest = after config all) ∨
        ∃ reply result, rest = .done result ∧ Verdict all reply result ∧
          front ++ said = answered ++
            [.asked (request id all) config.timeoutDuration config.cancelOnTimeout reply]) := by
  have hlt := ho.lt_maxPages
  induction hn : maxPages - pages.length generalizing pages front said with
  | zero => omega
  | succ n ih =>
    rw [after_eq config id ho.length] at hg
    cases hg with
    | nil => exact ⟨pages, front, ho, h, .inl ⟨List.append_nil front, (after_eq config id ho.length).symm⟩⟩
    | barred hg =>
      rw [List.forall_mem_cons] at hb
      cases hb.1
    | ask reply hg =>
      rw [List.forall_mem_cons] at hb
      let remark : Remark :=
        .asked (request id pages) config.timeoutDuration config.cancelOnTimeout reply
      have hid : Rpc.Request.new (following id front) "tools/list" (request id pages).params = request id pages := by
        rw [h.following_eq]
        rfl
      rw [hid]
      rcases resume_cases config ho reply with ⟨result, hr, hv⟩ | ⟨page, hp, hm, hr⟩
      . rw [hr] at hg
        rcases hg.of_done with ⟨hs, hd⟩
        subst hs hd
        exact ⟨pages, front, ho, h, .inr ⟨reply, result, rfl, hv, rfl⟩⟩
      . rw [hr] at hg
        rcases pageOf_eq_ok_iff.mp hp with ⟨value, hvalue, _⟩
        subst hvalue
        have hf : following id (front ++ [remark]) = following id front + 1 := following_concat id front remark
        rw [← hf] at hg
        have hrest := ih hg hb.2 hm (h.page hp) hm.length (by rw [List.length_append, List.length_singleton]; omega)
        rw [List.append_assoc] at hrest
        exact hrest

end Listing

namespace Dialogue

/-- The first request of a handshake, with its reply. -/
def introduced (config : BridgeConfig) (reply : Except BridgeError Json) : Remark :=
  .asked (Link.hello config) config.timeoutDuration false reply

/-- What is said before tools are listed, if all goes well. -/
def opening (config : BridgeConfig) (value : Json) : List Remark :=
  [introduced config (.ok value), .told Link.confirmed (.ok ()), .paused config.settleDuration]

/-- The last request of a listing, with its reply. -/
def asked (config : BridgeConfig) (pages : List ToolsPage) (reply : Except BridgeError Json) : Remark :=
  .asked (Listing.request 2 pages) config.timeoutDuration config.cancelOnTimeout reply

/-- What is said in a handshake that has come to its end, and what it comes to. -/
inductive Concluded (config : BridgeConfig) : List Remark → Except BridgeError (ServerInfo × List Tool) → Prop where
  | introduction (hs : serverOf reply = .error cause) :
    Concluded config [introduced config reply] (.error (failedStep .introduction cause))
  | confirmation (hs : serverOf (.ok value) = .ok server) :
    Concluded config [introduced config (.ok value), .told Link.confirmed (.error cause)]
      (.error (failedStep .confirmation cause))
  | listing (hs : serverOf (.ok value) = .ok server) (ho : Listing.Onward pages)
    (hl : Listing.Listed config 2 front pages) (hv : Listing.Verdict pages reply (.error cause)) :
    Concluded config (opening config value ++ front ++ [asked config pages reply])
      (.error (failedStep .listing cause))
  | ready (hs : serverOf (.ok value) = .ok server) (ho : Listing.Onward pages)
    (hl : Listing.Listed config 2 front pages) (hv : Listing.Verdict pages reply (.ok tools)) :
    Concluded config (opening config value ++ front ++ [asked config pages reply]) (.ok (server, tools))

/-- What is said in a handshake that has not come to its end, and what is left of it. -/
inductive Ongoing (config : BridgeConfig) :
    List Remark → Dialogue (Except BridgeError (ServerInfo × List Tool)) → Prop where
  | silent : Ongoing config [] (handshake config)
  | introduced (hs : serverOf (.ok value) = .ok server) :
    Ongoing config [introduced config (.ok value)] (confirm config server)
  | confirmed (hs : serverOf (.ok value) = .ok server) :
    Ongoing config [introduced config (.ok value), .told Link.confirmed (.ok ())]
      (.pause config.settleDuration fun _ => finishHandshake config server)
  | listing (hs : serverOf (.ok value) = .ok server) (ho : Listing.Onward pages)
    (hl : Listing.Listed config 2 front pages) :
    Ongoing config (opening config value ++ front)
      (.ask "tools/list" (Listing.request 2 pages).params config.timeoutDuration config.cancelOnTimeout next)

variable {config : BridgeConfig} {said : List Remark} {server : ServerInfo} {value : Json}

theorem exists_of_serverOf {reply : Except BridgeError Json} (h : serverOf reply = .ok server) :
    ∃ value, reply = .ok value := by
  cases reply with
  | error error => cases h
  | ok value => exact ⟨value, rfl⟩

theorem goes_finishHandshake {rest : Dialogue (Except BridgeError (ServerInfo × List Tool))}
    (hs : serverOf (.ok value) = .ok server) (hg : (finishHandshake config server).Goes 2 said rest)
    (hb : ∀ remark ∈ said, remark.isBarred = false) :
    Ongoing config (opening config value ++ said) rest ∨
      ∃ result, rest = .done result ∧ Concluded config (opening config value ++ said) result := by
  rcases hg.of_map with ⟨left, hl, hr⟩
  subst hr
  have hlist : (Listing.after config []).Goes (following 2 []) said left := by
    rw [following_nil]
    exact hl
  rcases Listing.goes_after hlist hb Listing.onward_nil .nil with
    ⟨pages, front, ho, hf, ⟨hsaid, hrest⟩ | ⟨reply, result, hrest, hv, hsaid⟩⟩
  . rw [List.nil_append] at hsaid
    subst hsaid hrest
    rw [Listing.after_eq config 2 ho.length]
    exact .inl (.listing hs ho hf)
  . rw [List.nil_append] at hsaid
    subst hsaid hrest
    rw [← List.append_assoc]
    cases result with
    | error cause => exact .inr ⟨_, rfl, .listing hs ho hf hv⟩
    | ok tools => exact .inr ⟨_, rfl, .ready hs ho hf hv⟩

/-- All that can be said in a handshake. -/
theorem goes_handshake {rest : Dialogue (Except BridgeError (ServerInfo × List Tool))}
    (hg : (handshake config).Goes 1 said rest) (hb : ∀ remark ∈ said, remark.isBarred = false) :
    Ongoing config said rest ∨ ∃ result, rest = .done result ∧ Concluded config said result := by
  unfold handshake at hg
  cases hg with
  | nil => exact .inl .silent
  | barred hg =>
    rw [List.forall_mem_cons] at hb
    cases hb.1
  | ask reply hg =>
    beta_reduce at hg
    cases hs : serverOf reply with
    | error cause =>
      rw [hs] at hg
      rcases hg.of_done with ⟨hn, hd⟩
      subst hn hd
      exact .inr ⟨_, rfl, .introduction hs⟩
    | ok server =>
      rcases exists_of_serverOf hs with ⟨value, hv⟩
      subst hv
      rw [hs] at hg
      unfold confirm at hg
      cases hg with
      | nil => exact .inl (.introduced hs)
      | tell sent hg =>
        cases sent with
        | error cause =>
          rcases hg.of_done with ⟨hn, hd⟩
          subst hn hd
          exact .inr ⟨_, rfl, .confirmation hs⟩
        | ok _ =>
          cases hg with
          | nil => exact .inl (.confirmed hs)
          | pause hg =>
            refine goes_finishHandshake hs hg ?_
            intro remark hm
            exact hb remark (.tail _ (.tail _ (.tail _ hm)))

end Dialogue

/-! ## What has been sent and what has come -/

namespace Handshake

open Dialogue

/-- What is sent in a handshake if there are these pages before the last one. -/
def script (config : BridgeConfig) (pages : List ToolsPage) : List Letter :=
  .request (Link.hello config) :: .notification Link.confirmed :: (Listing.requests 2 pages).map .request

/-- The server has introduced itself in response to the first request. -/
def Introduced (config : BridgeConfig) (asks : List Asking) (server : ServerInfo) : Prop :=
  ∃ a value, asks[0]? = some a ∧ a.request = Link.hello config ∧ a.progress = .done (.ok value) ∧
    serverOf (.ok value) = .ok server

/-- These pages have come in response to the next requests. -/
def Paged (asks : List Asking) (pages : List ToolsPage) : Prop :=
  ∀ n page, pages[n]? = some page → ∃ a value, asks[n + 1]? = some a ∧
    a.request = Listing.request 2 (pages.take n) ∧ a.progress = .done (.ok value) ∧
      Listing.pageOf (.ok value) = .ok page

/-- The pages are all pages of a listing. -/
def Complete (pages : List ToolsPage) : Prop :=
  ∃ before last, pages = before ++ [last] ∧ Listing.Onward before ∧ Listing.cursor? last = none

/-- A handshake has succeeded: what is known of the server is what its responses say. -/
structure Ready (config : BridgeConfig) (asks : List Asking) (server : ServerInfo) (tools : List Tool)
    (pages : List ToolsPage) : Prop where
  introduced : Introduced config asks server
  paged : Paged asks pages
  complete : Complete pages
  length : asks.length = pages.length + 1
  tools : tools = pages.flatMap ToolsPage.tools

/-- Which step of a handshake was the first to fail, and why. -/
inductive Fails (config : BridgeConfig) (asks : List Asking) (letters : List Letter) :
    HandshakeStep → BridgeError → Prop where
  | introduction (ha : asks = [a]) (hr : a.request = Link.hello config) (hd : a.progress = .done reply)
    (hs : serverOf reply = .error cause) : Fails config asks letters .introduction cause
  | confirmation (hi : Introduced config asks server) (hl : asks.length = 1)
    (hn : .notification Link.confirmed ∉ letters) : Fails config asks letters .confirmation .closed
  | listing (hi : Introduced config asks server) (hn : .notification Link.confirmed ∈ letters)
    (hp : Paged asks pages) (hl : asks.length = pages.length + 2) (ha : asks[pages.length + 1]? = some a)
    (hr : a.request = Listing.request 2 pages) (hd : a.progress = .done reply)
    (hv : Listing.Verdict pages reply (.error cause)) : Fails config asks letters .listing cause

variable {config : BridgeConfig} {said front : List Remark} {pages : List ToolsPage} {letters : List Letter}
  {server : ServerInfo} {tools : List Tool} {value : Json} {error : BridgeError}

theorem paged_nil (asks : List Asking) : Paged asks [] := by
  intro n page h
  cases h

theorem length_askingsOf_listed (h : Listing.Listed config 2 front pages) :
    (askingsOf front).length = pages.length := by
  induction h with
  | nil => rfl
  | page h hp ih =>
    rw [askingsOf_concat, List.length_append, List.length_append, ih]
    rfl

theorem paged_of_listed (h : Listing.Listed config 2 front pages) (first : Asking) (more : List Asking) :
    Paged (first :: askingsOf front ++ more) pages := by
  induction h generalizing more with
  | nil => exact paged_nil _
  | @page said pages value page h hp ih =>
    have hl := length_askingsOf_listed h
    intro n other hn
    rw [askingsOf_concat, ← List.cons_append, List.append_assoc]
    rcases Nat.lt_or_ge n pages.length with hlt | hge
    . rw [List.getElem?_append_left hlt] at hn
      rw [List.take_append_of_le_length (Nat.le_of_lt hlt)]
      exact ih _ n other hn
    . obtain rfl : n = pages.length := by
        have := (List.getElem?_eq_some_iff.mp hn).1
        rw [List.length_append, List.length_singleton] at this
        omega
      rw [List.getElem?_concat_length] at hn
      cases hn
      let a : Asking := ⟨Listing.request 2 pages, config.timeoutDuration, config.cancelOnTimeout, .done (.ok value)⟩
      refine ⟨a, value, ?_, ?_, rfl, hp⟩
      . have hlength : pages.length + 1 = (first :: askingsOf said).length := congrArg (· + 1) hl.symm
        rw [hlength, List.getElem?_append_right (Nat.le_refl _), Nat.sub_self]
        rfl
      . rw [List.take_left]

/-- What was sent in a transcript, and what has come before it was sent. -/
structure Kept (config : BridgeConfig) (asks : List Asking) (letters : List Letter) : Prop where
  script : ∃ pages, Paged asks pages ∧ letters <+: script config pages
  introduced : ∀ letter ∈ letters, letter = .request (Link.hello config) ∨ ∃ server, Introduced config asks server
  length : asks.length ≤ Listing.maxPages + 1

theorem kept_of_introduced (hl : Leave [introduced config reply] letters) :
    Kept config (askingsOf [introduced config reply]) letters := by
  have hp : letters = [] ∨ letters = [.request (Link.hello config)] := by
    cases hl.of_singleton with
    | asked hp =>
      cases hp with
      | nothing _ | refused _ => exact .inl rfl
      | sent _ => exact .inr rfl
  refine ⟨⟨[], paged_nil _, ?_⟩, ?_, Nat.le_add_left 1 _⟩
  . rcases hp with hp | hp
    . rw [hp]
      exact List.nil_prefix
    . rw [hp]
      exact List.prefix_append _ _
  . intro letter hm
    rcases hp with hp | hp
    . rw [hp] at hm
      cases hm
    . rw [hp] at hm
      exact .inl (List.mem_singleton.mp hm)

theorem leave_introduced (hl : Leave (introduced config (.ok value) :: said) letters) :
    ∃ others, Leave said others ∧ letters = .request (Link.hello config) :: others := by
  cases hl with
  | cons hr hs =>
    cases hr with
    | asked hp =>
      rw [hp.eq_of_ok rfl]
      exact ⟨_, hs, rfl⟩

theorem leave_opening (hl : Leave (opening config value ++ said) letters) :
    ∃ others, Leave said others ∧
      letters = .request (Link.hello config) :: .notification Link.confirmed :: others := by
  rcases leave_introduced hl with ⟨others, ho, he⟩
  cases ho with
  | cons hr hs =>
    cases hr with
    | told =>
      cases hs with
      | cons hr hs =>
        cases hr with
        | paused => exact ⟨_, hs, he⟩

theorem introduced_cons (hs : serverOf (.ok value) = .ok server) (more : List Asking) :
    Introduced config (⟨Link.hello config, config.timeoutDuration, false, .done (.ok value)⟩ :: more) server :=
  ⟨_, value, rfl, rfl, rfl, hs⟩

theorem askingsOf_opening (said : List Remark) : askingsOf (opening config value ++ said) =
    ⟨Link.hello config, config.timeoutDuration, false, .done (.ok value)⟩ :: askingsOf said :=
  rfl

/-- What is sent after the server has been told that it can be used. -/
theorem kept_of_listed (hs : serverOf (.ok value) = .ok server) (ho : Listing.Onward pages)
    (hf : Listing.Listed config 2 front pages) (hl : Leave (opening config value ++ front ++ last) letters)
    (hlast : ∀ others, Leave last others →
      (askingsOf last).length ≤ 1 ∧ others <+: [.request (Listing.request 2 pages)]) :
    Kept config (askingsOf (opening config value ++ front ++ last)) letters := by
  rw [List.append_assoc] at hl ⊢
  rcases leave_opening hl with ⟨others, hothers, he⟩
  rcases hothers.split with ⟨first, second, hfirst, hsecond, hsplit⟩
  rcases hlast second hsecond with ⟨hlength, hp⟩
  rw [hf.leave hfirst] at hsplit
  have hasks : askingsOf (front ++ last) = askingsOf front ++ askingsOf last := List.filterMap_append ..
  rw [askingsOf_opening, hasks]
  refine ⟨⟨pages, paged_of_listed hf _ _, ?_⟩, fun _ _ => .inr ⟨server, introduced_cons hs _⟩, ?_⟩
  . have hr := congrArg (List.map Letter.request) (Listing.requests_eq 2 pages)
    rw [List.map_append] at hr
    unfold script
    rw [he, hsplit, hr, List.cons_prefix_cons, List.cons_prefix_cons, List.prefix_append_right_inj]
    exact ⟨rfl, rfl, hp⟩
  . rw [List.length_cons, List.length_append, length_askingsOf_listed hf]
    have := ho.lt_maxPages
    omega

theorem prefix_of_asked {reply : Except BridgeError Json} (hl : Leave [asked config pages reply] letters) :
    letters <+: [.request (Listing.request 2 pages)] := by
  cases hl.of_singleton with
  | asked hp =>
    cases hp with
    | nothing _ | refused _ => exact List.nil_prefix
    | sent _ => exact List.prefix_rfl

/-- Whatever is said in a handshake, what is sent is in the order of the script. -/
theorem kept_of_goes {rest : Dialogue (Except BridgeError (ServerInfo × List Tool))}
    (hg : (handshake config).Goes 1 said rest) (hb : ∀ remark ∈ said, remark.isBarred = false)
    (hl : Leave said letters) : Kept config (askingsOf said) letters := by
  rcases goes_handshake hg hb with h | ⟨result, _, h⟩
  . cases h with
    | silent =>
      cases hl
      exact ⟨⟨[], paged_nil _, List.nil_prefix⟩, nofun, Nat.zero_le _⟩
    | introduced hs => exact kept_of_introduced hl
    | confirmed hs =>
      rcases leave_introduced hl with ⟨others, ho, he⟩
      cases ho.of_singleton
      rw [he]
      refine ⟨⟨[], paged_nil _, List.prefix_append _ _⟩, fun _ _ => .inr ⟨_, introduced_cons hs _⟩, ?_⟩
      exact Nat.le_add_left 1 _
    | listing hs ho hf =>
      rw [← List.append_nil (opening config _ ++ _)] at hl ⊢
      refine kept_of_listed hs ho hf hl fun others hothers => ?_
      cases hothers
      exact ⟨Nat.zero_le _, List.nil_prefix⟩
  . cases h with
    | introduction _ => exact kept_of_introduced hl
    | confirmation hs =>
      rcases leave_introduced hl with ⟨others, ho, he⟩
      cases ho.of_singleton
      rw [he]
      refine ⟨⟨[], paged_nil _, List.prefix_append _ _⟩, fun _ _ => .inr ⟨_, introduced_cons hs _⟩, ?_⟩
      exact Nat.le_add_left 1 _
    | listing hs ho hf hv | ready hs ho hf hv =>
      exact kept_of_listed hs ho hf hl fun others hothers => ⟨Nat.le_refl 1, prefix_of_asked hothers⟩

/-! ## What comes of a handshake -/

theorem following_opening (said : List Remark) : following 1 (opening config value ++ said) = following 2 said := by
  show following 1 (.asked _ _ _ _ :: _) = _
  rw [following_asked]
  rfl

theorem ready_of_concluded (h : Concluded config said (.ok (server, tools))) :
    ∃ pages, Ready config (askingsOf said) server tools pages ∧ following 1 said = 2 + .ofNat pages.length := by
  generalize hresult : (Except.ok (server, tools) : Except BridgeError (ServerInfo × List Tool)) = result at h
  cases h with
  | introduction | confirmation | listing => cases hresult
  | @ready value _ pages front reply _ hs ho hf hv =>
    cases hresult
    cases hv with
    | @complete last hp hc =>
      rcases Listing.pageOf_eq_ok_iff.mp hp with ⟨listed, hreply, _⟩
      subst hreply
      have hall := hf.page hp
      have hasks : askingsOf (opening config value ++ front ++ [asked config pages (.ok listed)]) =
          ⟨Link.hello config, config.timeoutDuration, false, .done (.ok value)⟩ ::
            askingsOf (front ++ [asked config pages (.ok listed)]) := by
        rw [List.append_assoc, askingsOf_opening]
      refine ⟨pages ++ [last], ⟨?_, ?_, ⟨pages, last, rfl, ho, hc⟩, ?_, rfl⟩, ?_⟩
      . rw [hasks]
        exact introduced_cons hs _
      . rw [hasks]
        have hpaged := paged_of_listed hall
          ⟨Link.hello config, config.timeoutDuration, false, .done (.ok value)⟩ []
        rw [List.append_nil] at hpaged
        exact hpaged
      . rw [hasks, List.length_cons]
        exact congrArg (· + 1) (length_askingsOf_listed hall)
      . rw [List.append_assoc, following_opening]
        exact hall.following_eq

theorem fails_of_concluded (h : Concluded config said (.error error)) (hl : Leave said letters) :
    ∃ step cause, error = failedStep step cause ∧ Fails config (askingsOf said) letters step cause := by
  generalize hresult : (Except.error error : Except BridgeError (ServerInfo × List Tool)) = result at h
  cases h with
  | introduction hs =>
    cases hresult
    exact ⟨_, _, rfl, .introduction rfl rfl rfl hs⟩
  | confirmation hs =>
    cases hresult
    rcases leave_introduced hl with ⟨others, ho, he⟩
    cases ho.of_singleton
    refine ⟨_, _, rfl, .confirmation (introduced_cons hs _) rfl ?_⟩
    rw [he]
    nofun
  | @listing value server pages front reply cause hs ho hf hv =>
    cases hresult
    rw [List.append_assoc] at hl ⊢
    rcases leave_opening hl with ⟨others, _, he⟩
    let last : Asking := ⟨Listing.request 2 pages, config.timeoutDuration, config.cancelOnTimeout, .done reply⟩
    have hlast : askingsOf (front ++ [asked config pages reply]) = askingsOf front ++ [last] := askingsOf_concat ..
    have hlength := length_askingsOf_listed hf
    rw [askingsOf_opening, hlast]
    refine ⟨_, _, rfl, .listing (a := last) (introduced_cons hs _) ?_ (paged_of_listed hf _ _) ?_ ?_ rfl rfl hv⟩
    . rw [he]
      exact .tail _ (.head _)
    . rw [List.length_cons, List.length_append, hlength]
      rfl
    . rw [List.getElem?_cons_succ, ← hlength]
      exact List.getElem?_concat_length
  | ready => cases hresult

/-- However the link goes, a handshake on it comes to its end. -/
theorem concluded_hold (l : Link) (hl : l.channel.nextId = 1) (config : BridgeConfig) :
    ∃ said, Concluded config said (l.hold (handshake config)).1 ∧
      (l.hold (handshake config)).2.channel.nextId = following 1 said := by
  rcases l.goes_hold (handshake config) with ⟨said, hg, hn, hb⟩
  rw [hl] at hg hn
  refine ⟨said, ?_, hn⟩
  rcases goes_handshake hg hb with h | ⟨result, hr, h⟩
  . cases h
  . cases hr
    exact h

end Handshake

end Turnstile
