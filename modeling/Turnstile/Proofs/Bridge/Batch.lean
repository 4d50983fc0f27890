import Mathlib.Data.List.Induction
import Turnstile.Proofs.Bridge.Prompt
import Turnstile.Proofs.Bridge.Speech

/-!
This module contains the calls of tools that are made one after the other: each one only if the one before it has
succeeded, so that the results are in the order of the calls, and nothing is said after the first failure.
-/

namespace Turnstile

namespace Dialogue

theorem map_map (f : α → β) (g : β → γ) (d : Dialogue α) : (d.map f).map g = d.map (g ∘ f) := by
  induction d with
  | done result => rfl
  | ask method params limit cancels next ih => exact congrArg (ask method params limit cancels) (funext ih)
  | tell method params next ih => exact congrArg (tell method params) (funext ih)
  | pause time next ih => exact congrArg (pause time) (funext ih)

theorem map_id (d : Dialogue α) : d.map id = d := by
  induction d with
  | done result => rfl
  | ask method params limit cancels next ih => exact congrArg (ask method params limit cancels) (funext ih)
  | tell method params next ih => exact congrArg (tell method params) (funext ih)
  | pause time next ih => exact congrArg (pause time) (funext ih)

end Dialogue

namespace Batch

/-- The request for a call after other calls, given the identifier of the request for the first one. -/
def request (id : UInt64) (before : List ToolCall) (call : ToolCall) : Rpc.Request :=
  .new (id + .ofNat before.length) "tools/call" (some call.params)

/-- The requests for calls, one for each. -/
def requests (id : UInt64) (calls : List ToolCall) : List Rpc.Request :=
  calls.mapIdx fun n call => .new (id + .ofNat n) "tools/call" (some call.params)

/-- What a call comes to after other calls. -/
def outcome (server : Respondent) (id : UInt64) (before : List ToolCall) (call : ToolCall) : Except BridgeError Json :=
  Dialogue.callResult call (server (requests id (before ++ [call])))

/-- All calls succeed, with these results. -/
inductive Succeed (server : Respondent) (id : UInt64) : List ToolCall → List Json → Prop where
  | nil : Succeed server id [] []
  | call (h : Succeed server id before results) (hr : outcome server id before call = .ok result) :
    Succeed server id (before ++ [call]) (results ++ [result])

/-- The calls are made on a bridge one after the other, and all of them succeed. -/
inductive Made (limit : Duration) : Bridge → List ToolCall → List Json → Bridge → Prop where
  | nil : Made limit b [] [] b
  | call (h : Made limit b before results b') (hr : b'.call c limit = (.ok result, b'')) :
    Made limit b (before ++ [c]) (results ++ [result]) b''

/-- The requests of calls that have succeeded, with their results. -/
inductive Answered (limit : Duration) (cancels : Bool) (id : UInt64) :
    List ToolCall → List Remark → List Json → Prop where
  | nil : Answered limit cancels id [] [] []
  | call (h : Answered limit cancels id before said results)
    (hr : Dialogue.callResult call (.ok value) = .ok result) :
    Answered limit cancels id (before ++ [call])
      (said ++ [.asked (request id before call) limit cancels (.ok value)]) (results ++ [result])

/-- What is said at the call that fails, which may be nothing if the bridge has been shut down. -/
inductive Fails (limit : Duration) (cancels : Bool) (id : UInt64) (before : List ToolCall) (call : ToolCall) :
    Remark → BridgeError → Prop where
  | asked (h : Dialogue.callResult call reply = .error error) :
    Fails limit cancels id before call (.asked (request id before call) limit cancels reply) error
  | barred : Fails limit cancels id before call (.barred "tools/call" (some call.params)) .closed

/--
How far a batch has come: the requests that were made, what was sent for them, and what it has returned with. There is
a request for each call that has succeeded, and at most one more.
-/
inductive Standing (limit : Duration) (cancels : Bool) (id : UInt64) (calls : List ToolCall) :
    List Asking → List Letter → Option (Except BridgeError Answer) → Prop where
  | going (hc : calls = made ++ ahead) (h : Answered limit cancels id made said results) :
    Standing limit cancels id calls (askingsOf said) ((requests id made).map .request) none
  | calling (hc : calls = made ++ call :: later) (h : Answered limit cancels id made said results)
    (hr : a.request = request id made call) (hp : Asking.Posts a piece) :
    Standing limit cancels id calls (askingsOf said ++ [a]) ((requests id made).map .request ++ piece) none
  | succeeded (h : Answered limit cancels id calls said results) :
    Standing limit cancels id calls (askingsOf said) ((requests id calls).map .request)
      (some (.ok (.value (.list results))))
  | failed (hc : calls = made ++ call :: later) (h : Answered limit cancels id made said results)
    (hr : a.request = request id made call) (hp : Asking.Posts a piece) (hd : a.progress = .done reply)
    (he : Dialogue.callResult call reply = .error error) :
    Standing limit cancels id calls (askingsOf said ++ [a]) ((requests id made).map .request ++ piece)
      (some (.error error))
  /-- The bridge has been shut down before the next call. -/
  | barred (hc : calls = made ++ call :: later) (h : Answered limit cancels id made said results) :
    Standing limit cancels id calls (askingsOf said) ((requests id made).map .request) (some (.error .closed))

variable {limit : Duration} {cancels : Bool} {server : Respondent} {id : UInt64} {calls before after : List ToolCall}
  {call : ToolCall} {results : List Json} {result : Json} {reply : Except BridgeError Json} {error : BridgeError}

theorem requests_concat (id : UInt64) (calls : List ToolCall) (call : ToolCall) :
    requests id (calls ++ [call]) = requests id calls ++ [request id calls call] := by
  unfold requests
  rw [List.mapIdx_append]
  simp [request]

theorem length_requests (id : UInt64) (calls : List ToolCall) : (requests id calls).length = calls.length :=
  List.length_mapIdx

/-! ## One call after the other -/

/-- What is left of a batch after the calls that have these results. -/
def left (limit : Duration) (cancels : Bool) (results : List Json) (after : List ToolCall) :
    Dialogue (Except BridgeError (List Json)) :=
  (Dialogue.callEach limit cancels after).map (·.map (results ++ ·))

/-- What is left of a batch when the reply comes to its next call. -/
def resume (limit : Duration) (cancels : Bool) (results : List Json) (call : ToolCall) (after : List ToolCall)
    (reply : Except BridgeError Json) : Dialogue (Except BridgeError (List Json)) :=
  match Dialogue.callResult call reply with
  | .error error => .done (.error error)
  | .ok result => left limit cancels (results ++ [result]) after

theorem left_nil (limit : Duration) (cancels : Bool) (results : List Json) :
    left limit cancels results [] = .done (.ok results) :=
  congrArg (fun all => Dialogue.done (Except.ok all)) (List.append_nil results)

theorem left_cons (limit : Duration) (cancels : Bool) (results : List Json) (call : ToolCall) (after : List ToolCall) :
    left limit cancels results (call :: after) =
      .ask "tools/call" (some call.params) limit cancels (resume limit cancels results call after) := by
  refine congrArg (Dialogue.ask _ _ _ _) (funext fun reply => ?_)
  unfold resume
  beta_reduce
  cases Dialogue.callResult call reply with
  | error error => rfl
  | ok result =>
    show ((Dialogue.callEach limit cancels after).map _).map _ = (Dialogue.callEach limit cancels after).map _
    rw [Dialogue.map_map]
    congr 1
    funext rest
    cases rest <;> simp [Except.map]

theorem callEach_eq (limit : Duration) (cancels : Bool) (calls : List ToolCall) :
    Dialogue.callEach limit cancels calls = left limit cancels [] calls := by
  unfold left
  have hid : (fun rest : Except BridgeError (List Json) => rest.map ([] ++ ·)) = id := by
    funext rest
    cases rest <;> rfl
  rw [hid, Dialogue.map_id]

theorem resume_ok (hr : Dialogue.callResult call reply = .ok result) (results : List Json) (after : List ToolCall) :
    resume limit cancels results call after reply = left limit cancels (results ++ [result]) after := by
  unfold resume
  rw [hr]

theorem Succeed.length (h : Succeed server id calls results) : results.length = calls.length := by
  induction h with
  | nil => rfl
  | call _ _ ih => rw [List.length_append, List.length_append, ih, List.length_singleton, List.length_singleton]

/-- A batch of which some calls have been made, as an operation of a bridge. -/
def proceed (b : Bridge) (limit : Duration) (results : List Json) (after : List ToolCall) :
    Except BridgeError (List Json) × Bridge :=
  let (result, link) := b.link.hold (left limit b.config.cancelOnTimeout results after)
  (result, { b with link })

theorem call_eq (b : Bridge) (call : ToolCall) (limit : Duration) :
    let asked := b.link.ask "tools/call" (some call.params) limit b.config.cancelOnTimeout
    b.call call limit = (Dialogue.callResult call asked.1, { b with link := asked.2 }) :=
  rfl

theorem hold_left (l : Link) (limit : Duration) (cancels : Bool) (results : List Json) (call : ToolCall)
    (after : List ToolCall) :
    let asked := l.ask "tools/call" (some call.params) limit cancels
    l.hold (left limit cancels results (call :: after)) =
      asked.2.hold (resume limit cancels results call after asked.1) := by
  rw [left_cons]
  exact Link.hold_ask rfl

theorem proceed_of_ok {b later : Bridge} (hr : b.call call limit = (.ok result, later)) (results : List Json)
    (after : List ToolCall) :
    proceed b limit results (call :: after) = proceed later limit (results ++ [result]) after := by
  rw [call_eq] at hr
  rcases Prod.mk.inj hr with ⟨ho, hb⟩
  subst hb
  unfold proceed
  rw [hold_left, resume_ok ho]

theorem callAll_eq (b : Bridge) (calls : List ToolCall) (limit : Duration) :
    b.callAll (.many calls) limit = ((proceed b limit [] calls).1.map .list, (proceed b limit [] calls).2) := by
  unfold Bridge.callAll Dialogue.callAll
  rw [Link.hold_map rfl, callEach_eq]
  rfl

theorem Made.proceed {b later : Bridge} (h : Made limit b before results later) (after : List ToolCall) :
    Batch.proceed b limit [] (before ++ after) = Batch.proceed later limit results after := by
  induction h generalizing after with
  | nil => rfl
  | call h hr ih => rw [List.append_assoc, List.singleton_append, ih, proceed_of_ok hr]

theorem Made.callAll {b later : Bridge} (h : Made limit b calls results later) :
    b.callAll (.many calls) limit = (.ok (.list results), later) := by
  have hp := h.proceed []
  rw [List.append_nil] at hp
  rw [callAll_eq, hp]
  unfold Batch.proceed
  rw [left_nil]
  rfl

theorem Answered.requestsOf_eq (h : Answered limit cancels id before said results) :
    requestsOf said = requests id before := by
  induction h with
  | nil => rfl
  | call h hr ih =>
    rw [requests_concat, ← ih]
    unfold requestsOf
    rw [List.filterMap_append]
    rfl

theorem Answered.following_eq {said : List Remark} (h : Answered limit cancels id before said results) :
    following id said = id + .ofNat before.length := by
  unfold following
  rw [h.requestsOf_eq, length_requests]

theorem Answered.leave {said : List Remark} (h : Answered limit cancels id before said results)
    (hl : Leave said letters) : letters = (requests id before).map .request := by
  induction h generalizing letters with
  | nil =>
    cases hl
    rfl
  | call h hr ih =>
    rcases hl.split with ⟨first, second, hf, hs, he⟩
    cases hs.of_singleton with
    | asked hp => rw [he, ih hf, hp.eq_of_ok rfl, requests_concat, List.map_append, List.map_singleton]

def talk (limit : Duration) (cancels : Bool) (calls : List ToolCall) : Talk :=
  (Errand.call (.many calls) limit cancels).talk

open Liaison

variable {begun l : Liaison}

/-- What the reply to a call makes of it. -/
structure Judged (call : ToolCall) : Prop where
  refused : ∀ method error, Dialogue.callResult call (.error (.rpc method error)) =
    .error (.toolCallFailed call.name call.arguments error.describe)
  passed : ∀ error, (∀ method cause, error ≠ .rpc method cause) →
    Dialogue.callResult call (.error error) = .error error
  failed : ∀ result, result.get? "isError" = some (.bool true) → Dialogue.callResult call (.ok result) =
    .error (.toolCallFailed call.name call.arguments (ToolResult.errorText result))
  succeeded : ∀ result, result.get? "isError" ≠ some (.bool true) →
    ∃ value, Dialogue.callResult call (.ok result) = .ok value

theorem isError_iff (result : Json) : ToolResult.isError result ↔ result.get? "isError" = some (.bool true) := by
  unfold ToolResult.isError
  cases hg : result.get? "isError" with
  | none => simp
  | some value => cases value <;> simp [Json.bool?]

theorem judged (call : ToolCall) : Judged call where
  refused method error := rfl
  passed error hn := by
    unfold Dialogue.callResult
    split
    . next h => cases h
    . next h =>
      cases h
      exact absurd rfl (hn _ _)
    . next h => exact h.symm
  failed result hr := by
    unfold Dialogue.callResult ToolResult.value
    dsimp only
    rw [if_pos ((isError_iff result).mpr hr)]
    rfl
  succeeded result hr := by
    unfold Dialogue.callResult ToolResult.value
    dsimp only
    rw [if_neg (fun he => hr ((isError_iff result).mp he))]
    split
    . exact ⟨_, rfl⟩
    . split <;> exact ⟨_, rfl⟩

/-! ## Batches -/

namespace Sample

def named (name : String) : ToolCall :=
  ⟨name, .object []⟩

end Sample

end Batch

end Turnstile
