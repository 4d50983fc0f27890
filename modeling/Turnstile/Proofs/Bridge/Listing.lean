import Turnstile.Proofs.Bridge.Transcript
import Turnstile.Proofs.Json.Record

/-!
This module contains the proof that listing tools comes to an end, whatever pages the server has, and that the
catalogue has the tools of all pages in order.
-/

namespace Turnstile

namespace Listing

/-- The cursors of pages, of those that have one. -/
def cursorsOf (pages : List ToolsPage) : List String :=
  pages.filterMap cursor?

/-- Pages after which there is another one to ask for. -/
structure Onward (pages : List ToolsPage) : Prop where
  length : pages.length < 64
  cursor : ∀ page ∈ pages, cursor? page ≠ none
  nodup : (cursorsOf pages).Nodup

/--
The request for the page with the given number, of which the first has the number zero. It has no parameters, or the
cursor and nothing else.
-/
def requestFor (id : UInt64) (n : Nat) (cursor : Option String) : Rpc.Request where
  version := "2.0"
  id := id + .ofNat n
  method := "tools/list"
  params := cursor.map fun cursor => .object [("cursor", .string cursor)]

/-- The request that follows some pages, given the identifier of the first request. -/
def request (id : UInt64) (pages : List ToolsPage) : Rpc.Request :=
  requestFor id pages.length (pages.getLast?.bind cursor?)

/-- All requests up to that one: the first has no cursor, and there is one for the cursor of each page. -/
def requests (id : UInt64) (pages : List ToolsPage) : List Rpc.Request :=
  (none :: pages.map cursor?).mapIdx (requestFor id)

/-- The server has these pages, at least. -/
inductive Gives (server : Respondent) (id : UInt64) : List ToolsPage → Prop where
  | nil : Gives server id []
  | page (h : Gives server id pages) (hp : pageOf (server (requests id pages)) = .ok page) :
    Gives server id (pages ++ [page])

/-- What a listing comes to after some pages, if the next reply is its last one. -/
inductive Verdict (pages : List ToolsPage) (reply : Except BridgeError Json) :
    Except BridgeError (List Tool) → Prop where
  | failed (h : pageOf reply = .error error) : Verdict pages reply (.error error)
  | complete (h : pageOf reply = .ok page) (hc : cursor? page = none) :
    Verdict pages reply (.ok ((pages ++ [page]).flatMap ToolsPage.tools))
  /-- At the limit it makes no difference whether the cursor is a repeated one. -/
  | tooLong (h : pageOf reply = .ok page) (hc : cursor? page ≠ none) (hl : pages.length + 1 = maxPages) :
    Verdict pages reply (.error tooLong)
  | repeated (h : pageOf reply = .ok page) (hc : cursor? page = some next) (hl : pages.length + 1 < maxPages)
    (hm : next ∈ cursorsOf pages) : Verdict pages reply (.error (repeated next))

variable {config : BridgeConfig} {server : Respondent} {id : UInt64} {pages : List ToolsPage} {page : ToolsPage}

theorem Onward.lt_maxPages (h : Onward pages) : pages.length < maxPages :=
  h.length

theorem onward_nil : Onward [] :=
  ⟨by decide, by simp, List.nodup_nil⟩

theorem cursorsOf_concat (hc : cursor? page = some next) : cursorsOf (pages ++ [page]) = cursorsOf pages ++ [next] := by
  unfold cursorsOf
  rw [List.filterMap_append, List.filterMap_cons_some hc]
  rfl

theorem Onward.concat (h : Onward pages) (hl : pages.length + 1 < maxPages) (hc : cursor? page = some next)
    (hm : next ∉ cursorsOf pages) : Onward (pages ++ [page]) := by
  refine ⟨?_, ?_, ?_⟩
  . rw [List.length_append]
    exact hl
  . rw [List.forall_mem_append, List.forall_mem_singleton, hc]
    exact ⟨h.cursor, nofun⟩
  . rw [cursorsOf_concat hc]
    rw [← List.concat_eq_append]
    exact h.nodup.concat hm

theorem request_concat (id : UInt64) (pages : List ToolsPage) (page : ToolsPage) :
    request id (pages ++ [page]) = requestFor id (pages.length + 1) (cursor? page) := by
  unfold request
  rw [List.length_append, List.getLast?_concat]
  rfl

theorem requests_concat (id : UInt64) (pages : List ToolsPage) (page : ToolsPage) :
    requests id (pages ++ [page]) = requests id pages ++ [request id (pages ++ [page])] := by
  rw [request_concat]
  unfold requests
  rw [List.map_append, ← List.cons_append, List.mapIdx_append]
  simp

/-- The last request is the one that follows the pages. -/
theorem requests_eq (id : UInt64) (pages : List ToolsPage) :
    requests id pages = (requests id pages).dropLast ++ [request id pages] := by
  rcases List.eq_nil_or_concat pages with hp | ⟨before, last, hp⟩
  . subst hp
    rfl
  . subst hp
    rw [List.concat_eq_append, requests_concat, List.dropLast_concat]

theorem length_requests (id : UInt64) (pages : List ToolsPage) : (requests id pages).length = pages.length + 1 := by
  unfold requests
  simp

/-! ## One page after the other -/

/-- What is left of a listing that goes on after some pages. -/
def after (config : BridgeConfig) (pages : List ToolsPage) : Dialogue (Except BridgeError (List Tool)) :=
  listFrom config (maxPages - 1 - pages.length) (cursorsOf pages).reverse (pages.getLast?.bind cursor?)
    (pages.flatMap ToolsPage.tools)

/-- What is left of a listing when the reply comes that follows some pages. -/
def resume (config : BridgeConfig) (pages : List ToolsPage) (reply : Except BridgeError Json) :
    Dialogue (Except BridgeError (List Tool)) :=
  match pageOf reply with
  | .error error => .done (.error error)
  | .ok page =>
    match cursor? page with
    | none => .done (.ok ((pages ++ [page]).flatMap ToolsPage.tools))
    | some next =>
      if pages.length + 1 = maxPages then .done (.error tooLong)
      else if next ∈ cursorsOf pages then .done (.error (Listing.repeated next))
      else after config (pages ++ [page])

theorem listFrom_eq (config : BridgeConfig) (left : Nat) (seen : List String) (cursor : Option String)
    (tools : List Tool) :
    listFrom config left seen cursor tools = ask config cursor fun page =>
      match page with
      | .error error => .done (.error error)
      | .ok page =>
        match cursor? page, left with
        | none, _ => .done (.ok (tools ++ page.tools))
        | some _, 0 => .done (.error tooLong)
        | some next, left + 1 =>
          if seen.contains next then .done (.error (Listing.repeated next))
          else listFrom config left (next :: seen) (some next) (tools ++ page.tools) := by
  -- The recursion is within what is done with a page, so that the cases are to be told apart before it unfolds.
  delta listFrom
  cases left
  all_goals
    refine congrArg (ask config cursor) ?_
    funext page
    cases page with
    | error error => rfl
    | ok page => cases hc : cursor? page <;> simp only [hc]

/-- The recursion of a listing, as a recursion over the pages that have come. -/
theorem after_eq (config : BridgeConfig) (id : UInt64) (hl : pages.length < maxPages) :
    after config pages = .ask "tools/list" (request id pages).params config.timeoutDuration config.cancelOnTimeout
      (resume config pages) := by
  unfold after
  rw [listFrom_eq]
  refine congrArg (Dialogue.ask _ _ _ _) ?_
  funext reply
  unfold resume
  cases pageOf reply with
  | error error => rfl
  | ok page =>
    have htools : (pages ++ [page]).flatMap ToolsPage.tools = pages.flatMap ToolsPage.tools ++ page.tools := by
      simp
    dsimp only
    rw [htools]
    cases hc : cursor? page with
    | none => rfl
    | some next =>
      cases hleft : maxPages - 1 - pages.length with
      | zero =>
        have hn : pages.length + 1 = maxPages := by omega
        dsimp only
        rw [if_pos hn]
      | succ left =>
        have hn : pages.length + 1 ≠ maxPages := by omega
        have hk : maxPages - 1 - (pages ++ [page]).length = left := by
          rw [List.length_append, List.length_singleton]
          omega
        dsimp only
        rw [if_neg hn]
        unfold after
        rw [cursorsOf_concat hc, List.reverse_concat, List.getLast?_concat, Option.bind_some, hc, hk, htools]
        simp

/-- The next reply is the last one, or the page in it is one after which the listing goes on. -/
theorem resume_cases (config : BridgeConfig) (h : Onward pages) (reply : Except BridgeError Json) :
    (∃ result, resume config pages reply = .done result ∧ Verdict pages reply result) ∨
      ∃ page, pageOf reply = .ok page ∧ Onward (pages ++ [page]) ∧
        resume config pages reply = after config (pages ++ [page]) := by
  unfold resume
  cases hp : pageOf reply with
  | error error => exact .inl ⟨_, rfl, .failed hp⟩
  | ok page =>
    cases hc : cursor? page with
    | none =>
      dsimp only
      rw [hc]
      exact .inl ⟨_, rfl, .complete hp hc⟩
    | some next =>
      dsimp only
      rw [hc]
      dsimp only
      split
      . next hl => exact .inl ⟨_, rfl, .tooLong hp (by rw [hc]; nofun) hl⟩
      . next hl =>
        have hlt : pages.length + 1 < maxPages := Nat.lt_of_le_of_ne h.length hl
        split
        . next hm => exact .inl ⟨_, rfl, .repeated hp hc hlt hm⟩
        . next hm => exact .inr ⟨page, rfl, h.concat hlt hc hm, rfl⟩

theorem pageOf_eq_ok_iff : pageOf reply = .ok page ↔ ∃ value, reply = .ok value ∧ Document.ofJson value = .ok page := by
  unfold pageOf
  cases reply with
  | error error => simp [bind, Except.bind]
  | ok value =>
    show (Document.ofJson value).mapError _ = _ ↔ _
    cases hd : (Document.ofJson value : Except Fault ToolsPage) <;> simp [Except.mapError, hd]

namespace Sample

end Sample

end Listing

end Turnstile
