import Turnstile.Bridge.Channel
import Turnstile.Proofs.Json.Printing
import Turnstile.Proofs.Json.Record

/-!
This module contains what a line is taken for: a request, a notification, a response or none of them. The lines of
this side's own messages are taken for what they are, as far as their values can be read again.
-/

namespace Turnstile

open Document Json

namespace Rpc

namespace Incoming

variable {message : Json} {line : String}

/-! ## Kinds of messages -/

theorem method_eq_some_iff : (message.get? "method").bind string? = some method ↔
    message.get? "method" = some (.string method) := by
  cases message.get? "method" with
  | none => simp
  | some value => cases value <;> simp [string?]

theorem isNull_iff (value : Json) : value.isNull ↔ value = .null := by
  cases value <;> simp [isNull]

theorem identifier?_eq_some_iff {id : Json} :
    identifier? message = some id ↔ message.get? "id" = some id ∧ id ≠ .null := by
  unfold identifier?
  rw [Option.filter_eq_some_iff, Bool.not_eq_true', ← Bool.not_eq_true, isNull_iff]

theorem identifier?_eq_none_iff :
    identifier? message = none ↔ message.get? "id" = none ∨ message.get? "id" = some .null := by
  unfold identifier?
  rw [Option.filter_eq_none_iff]
  cases message.get? "id" with
  | none => simp
  | some id => simp [isNull_iff]

/-- The message is a request: it has a method and an identifier. -/
structure IsRequest (message id : Json) (method : String) (params : Option Json) : Prop where
  method : message.get? "method" = some (.string method)
  id : message.get? "id" = some id ∧ id ≠ .null
  params : message.get? "params" = params

/-- The message is a notification: it has a method, and no identifier but perhaps `null`. -/
structure IsNotification (message : Json) (n : Notification) : Prop where
  version : n.version = Rpc.version
  method : message.get? "method" = some (.string n.method)
  id : message.get? "id" = none ∨ message.get? "id" = some .null
  params : message.get? "params" = n.params

/-- The message is a response: it has no method, but an identifier and what has come of the request. -/
structure IsResponse (message : Json) (r : Response) : Prop where
  method : ∀ method, message.get? "method" ≠ some (.string method)
  id : ∃ id, message.get? "id" = some id ∧ id ≠ .null
  outcome : message.get? "result" ≠ none ∨ message.get? "error" ≠ none
  decoded : Document.ofJson message = .ok r

/-- What kind of message it is, and of which parts. No message is of two kinds. -/
def Means (message : Json) : Incoming → Prop
  | .request id method params => IsRequest message id method params
  | .notification n => IsNotification message n
  | .response r => IsResponse message r

theorem isObject_of_get? (h : message.get? name = some value) : message.isObject := by
  cases message with
  | object members => rfl
  | _ => cases h

theorem means_of_ofJson (h : ofJson message = .ok incoming) : Means message incoming := by
  unfold ofJson at h
  split at h
  . cases h
  . split at h
    . next method id hm hi =>
      cases h
      exact ⟨method_eq_some_iff.mp hm, identifier?_eq_some_iff.mp hi, rfl⟩
    . next method hm hi =>
      cases h
      exact ⟨rfl, method_eq_some_iff.mp hm, identifier?_eq_none_iff.mp hi, rfl⟩
    . next id hm hi =>
      split at h
      . next ho =>
        split at h
        . next answer hd =>
          cases h
          refine ⟨?_, ⟨id, identifier?_eq_some_iff.mp hi⟩, ?_, hd⟩
          . intro method hs
            rw [method_eq_some_iff.mpr hs] at hm
            cases hm
          . simpa [Option.isSome_iff_ne_none] using ho
        . cases h
      . cases h
    . cases h

theorem ofJson_of_means (h : Means message incoming) : ofJson message = .ok incoming := by
  cases incoming with
  | request id method params =>
    have h : IsRequest message id method params := h
    have ho := isObject_of_get? h.method
    unfold ofJson
    rw [method_eq_some_iff.mpr h.method, identifier?_eq_some_iff.mpr h.id, h.params]
    simp [ho]
  | notification n =>
    have h : IsNotification message n := h
    have ho := isObject_of_get? h.method
    unfold ofJson
    rw [method_eq_some_iff.mpr h.method, identifier?_eq_none_iff.mpr h.id, h.params]
    simp [ho, Notification.new, ← h.version]
  | response r =>
    have h : IsResponse message r := h
    rcases h.id with ⟨id, hi⟩
    have ho := isObject_of_get? hi.1
    have hm : (message.get? "method").bind string? = none := by
      rw [Option.eq_none_iff_forall_ne_some]
      intro method hs
      exact h.method method (method_eq_some_iff.mp hs)
    have hr : (message.get? "result").isSome || (message.get? "error").isSome := by
      simpa [Option.isSome_iff_ne_none] using h.outcome
    unfold ofJson
    rw [hm, identifier?_eq_some_iff.mpr hi]
    dsimp only
    rw [if_pos hr, h.decoded]
    simp [ho]

theorem ofLine_eq_ok_iff :
    ofLine line = .ok incoming ↔ ∃ message, parse? line = some message ∧ Means message incoming := by
  unfold ofLine
  cases parse? line with
  | none => simp
  | some message =>
    have : ofJson message = .ok incoming ↔ Means message incoming := ⟨means_of_ofJson, ofJson_of_means⟩
    simpa using this

theorem exists_error_iff :
    (∃ fault, ofLine line = .error fault) ↔
      ∀ message incoming, parse? line = some message → ¬Means message incoming := by
  constructor
  . intro ⟨fault, hf⟩ message incoming hp hm
    rw [ofLine_eq_ok_iff.mpr ⟨message, hp, hm⟩] at hf
    cases hf
  . intro h
    cases ho : ofLine line with
    | error fault => exact ⟨fault, rfl⟩
    | ok incoming =>
      rcases ofLine_eq_ok_iff.mp ho with ⟨message, hp, hm⟩
      exact absurd hm (h message incoming hp)

/-! ## Messages of this side -/

/-- A line that can be read is taken for what it says. -/
theorem ofLine_compact (h : Means message.heard incoming) :
    ofLine message.compact = if message.isLegible 0 then .ok incoming else .error .malformed := by
  unfold ofLine
  rw [parse?_compact]
  by_cases hl : message.isLegible 0
  . simp [hl, ofJson_of_means h]
  . simp [hl]

theorem haveLegible_optionalMember (depth : Nat) (name : String) (value? : Option Json) :
    haveLegible depth (optionalMember name value?) = value?.all (isLegible depth) := by
  cases value? <;> simp [optionalMember, haveLegible, Document.encode]

theorem isLegible_request (r : Request) : (encode r).isLegible 0 = r.params.all (isLegible 1) := by
  show (Json.object _).isLegible 0 = _
  rw [isLegible_object (by decide), ← haveLegible_optionalMember 1 "params"]
  simp [haveLegible, Document.encode]

theorem ofLine_request (r : Request) :
    ofLine (Channel.line r) =
      if r.params.all (isLegible 1) then .ok (.request (encode r.id) r.method (r.params.map heard))
      else .error .malformed := by
  rw [← isLegible_request]
  apply ofLine_compact
  rcases r with ⟨version, id, method, params⟩
  have hg := get?_heard <|
    [("jsonrpc", .string version), ("id", encode id), ("method", .string method)] ++ optionalMember "params" params
  refine ⟨?_, ⟨?_, ?_⟩, ?_⟩
  . show get? "method" (heard (.object _)) = _
    rw [hg]
    cases params <;> simp [optionalMember, List.lookup_cons]
  . show get? "id" (heard (.object _)) = _
    rw [hg]
    cases params <;> simp [optionalMember, List.lookup_cons, Document.encode]
  . exact Json.noConfusion
  . show get? "params" (heard (.object _)) = _
    rw [hg]
    cases params <;> simp [optionalMember, List.lookup_cons, Document.encode]

theorem isLegible_notification (n : Notification) : (encode n).isLegible 0 = n.params.all (isLegible 1) := by
  show (Json.object _).isLegible 0 = _
  rw [isLegible_object (by decide), ← haveLegible_optionalMember 1 "params"]
  simp [haveLegible]

theorem ofLine_notification (n : Notification) :
    ofLine (Channel.line n) =
      if n.params.all (isLegible 1) then .ok (.notification (.new n.method (n.params.map heard)))
      else .error .malformed := by
  rw [← isLegible_notification]
  apply ofLine_compact
  rcases n with ⟨version, method, params⟩
  have hg := get?_heard <|
    [("jsonrpc", .string version), ("method", .string method)] ++ optionalMember "params" params
  refine ⟨rfl, ?_, .inl ?_, ?_⟩
  . show get? "method" (heard (.object _)) = _
    rw [hg]
    cases params <;> simp [optionalMember, List.lookup_cons, Notification.new]
  . show get? "id" (heard (.object _)) = _
    rw [hg]
    cases params <;> simp [optionalMember, List.lookup_cons]
  . show get? "params" (heard (.object _)) = _
    rw [hg]
    cases params <;> simp [optionalMember, List.lookup_cons, Document.encode, Notification.new]

end Incoming

/-! ## Outcomes of requests -/

/-- What is read of a value that can be left out. It is as good as left out if it is `null`. -/
def given (value? : Option Json) : Option Json :=
  (value?.map heard).filter (!·.isNull)

theorem isNull_written (v : Json) : v.written.isNull = v.isNull := by
  cases v <;> rfl

theorem decode_given (h : value?.map heard = some v) :
    (if v.written.isNull then .ok none else some <$> Document.decode v.written : Except Fault (Option Json)) =
      .ok (given value?) := by
  rcases Option.map_eq_some_iff.mp h with ⟨value, hs, hv⟩
  subst hs hv
  have hd : (Document.decode value.heard.written : Except Fault Json) = .ok value.heard := by
    have := ofJson_json value.heard
    rwa [normalize_heard] at this
  unfold given
  rw [isNull_written, Option.map_some, Option.filter_some]
  cases value.heard.isNull with
  | true => rfl
  | false =>
    rw [hd]
    rfl

namespace Error

/-- The error that is read of the text of an error. -/
def heard (e : Error) : Error :=
  { e with data := given e.data }

theorem ofJson_heard (e : Error) : Document.ofJson (encode e).heard = .ok e.heard := by
  rcases e with ⟨code, message, data⟩
  have hw := (((Fields.Writes.required "code" (Faithful.restored code)).map Error.mk).seq
    (Fields.Writes.required "message" (Faithful.restored message))).seq
    (Fields.Writes.optional_of_decode "data" (data.map Json.heard) (given data)
      (by simp +contextual [given]) (fun v hv => decode_given hv))
  apply hw.decode_of_lookup (by decide) (sorted_normalizeMembers _).nodup
  intro name hn
  have hg := get?_heard ([("code", encode code), ("message", .string message)] ++ optionalMember "data" data) name
  show get? name (Json.heard (.object _)) = _
  rw [hg]
  have hn : name ∈ ["code", "message", "data"] := hn
  simp only [List.mem_cons, List.not_mem_nil, or_false] at hn
  rcases hn with hn | hn | hn <;> subst hn <;> cases data <;>
    simp [optionalMember, List.lookup_cons, Document.encode]

end Error

namespace Response

/-- The response that is read of the text of a response. -/
def heard (r : Response) : Response :=
  ⟨r.version, r.id.heard, given r.result, r.error.map Error.heard⟩

theorem ofJson_heard (r : Response) : Document.ofJson (encode r).heard = .ok r.heard := by
  rcases r with ⟨version, id, result, error⟩
  have hid : Document.ofJson (encode id.heard) = .ok id.heard := by
    have := ofJson_json id.heard
    rwa [normalize_heard] at this
  have herror : ∀ v, error.map (fun e => (encode e).heard) = some v →
      (if v.written.isNull then .ok none else some <$> Document.decode v.written : Except Fault (Option Error)) =
        .ok (error.map Error.heard) := by
    intro v hv
    rcases Option.map_eq_some_iff.mp hv with ⟨e, hs, he⟩
    subst hs he
    have hn : (encode e).heard.written.isNull = false := rfl
    have hd : Document.decode (encode e).heard.written = .ok e.heard := e.ofJson_heard
    rw [hn, hd]
    rfl
  have hw := ((((Fields.Writes.required "jsonrpc" (Faithful.restored version)).map Response.mk).seq
    (Fields.Writes.required "id" hid)).seq
    (Fields.Writes.optional_of_decode "result" (result.map Json.heard) (given result)
      (by simp +contextual [given]) (fun v hv => decode_given hv))).seq
    (Fields.Writes.optional_of_decode "error" (error.map fun e => (encode e).heard) (error.map Error.heard)
      (by simp) herror)
  apply hw.decode_of_lookup (by decide) (sorted_normalizeMembers _).nodup
  intro name hn
  have hg := get?_heard ([("jsonrpc", .string version), ("id", id)] ++ optionalMember "result" result ++
    optionalMember "error" error) name
  show get? name (Json.heard (.object _)) = _
  rw [hg]
  have hn : name ∈ ["jsonrpc", "id", "result", "error"] := hn
  simp only [List.mem_cons, List.not_mem_nil, or_false] at hn
  rcases hn with hn | hn | hn | hn <;> subst hn <;> cases result <;> cases error <;>
    simp [optionalMember, List.lookup_cons, Document.encode]

theorem getD_given (value? : Option Json) : (given value?).getD .null = (value?.getD .null).heard := by
  cases value? with
  | none => rfl
  | some value =>
    unfold given
    rw [Option.map_some, Option.filter_some, Option.getD_some]
    split
    . rfl
    . next hn =>
      have : value.heard = .null := by simpa [Incoming.isNull_iff] using hn
      rw [this]
      rfl

/-- What has come of the request is what is read of that. -/
theorem outcome_heard (r : Response) : r.heard.outcome = (r.outcome.map Json.heard).mapError Error.heard := by
  rcases r with ⟨version, id, result, error⟩
  cases error with
  | some e => rfl
  | none => exact congrArg Except.ok (getD_given result)

end Response

namespace Incoming

theorem isLegible_response (r : Response) :
    (encode r).isLegible 0 =
      (r.id.isLegible 1 && r.result.all (isLegible 1) && r.error.all fun e => e.data.all (isLegible 2)) := by
  have he : ∀ e : Error, (encode e).isLegible 1 = e.data.all (isLegible 2) := by
    intro e
    show (Json.object _).isLegible 1 = _
    rw [isLegible_object (by decide), ← haveLegible_optionalMember 2 "data"]
    simp [haveLegible, Document.encode]
  show (Json.object _).isLegible 0 = _
  rw [isLegible_object (by decide), ← haveLegible_optionalMember 1 "result"]
  cases r.result <;> cases r.error <;> simp [optionalMember, haveLegible, he, Bool.and_assoc]

theorem ofLine_response (r : Response) (hi : r.id ≠ .null) (ho : r.result ≠ none ∨ r.error ≠ none) :
    ofLine (Channel.line r) =
      if r.id.isLegible 1 && r.result.all (isLegible 1) && r.error.all fun e => e.data.all (isLegible 2) then
        .ok (.response r.heard)
      else .error .malformed := by
  rw [← isLegible_response]
  apply ofLine_compact
  have hd := r.ofJson_heard
  rcases r with ⟨version, id, result, error⟩
  have hg := get?_heard <|
    [("jsonrpc", .string version), ("id", id)] ++ optionalMember "result" result ++ optionalMember "error" error
  refine ⟨?_, ⟨id.heard, ?_, ?_⟩, ?_, hd⟩
  . intro method
    show get? "method" (heard (.object _)) ≠ _
    rw [hg]
    cases result <;> cases error <;> simp [optionalMember, List.lookup_cons]
  . show get? "id" (heard (.object _)) = _
    rw [hg]
    cases result <;> cases error <;> simp [optionalMember, List.lookup_cons]
  . rwa [Ne, heard_eq_null_iff]
  . show get? "result" (heard (.object _)) ≠ _ ∨ get? "error" (heard (.object _)) ≠ _
    rw [hg, hg]
    cases result <;> cases error <;> simp [optionalMember, List.lookup_cons] at ho ⊢

/-- What lines are taken for, and the lines of the messages of this side among them. -/
structure Recognized : Prop where
  request : ∀ line id method params, ofLine line = .ok (.request id method params) ↔
    ∃ message, parse? line = some message ∧ IsRequest message id method params
  notification : ∀ line n, ofLine line = .ok (.notification n) ↔
    ∃ message, parse? line = some message ∧ IsNotification message n
  response : ∀ line r, ofLine line = .ok (.response r) ↔
    ∃ message, parse? line = some message ∧ IsResponse message r
  other : ∀ line, (∃ fault, ofLine line = .error fault) ↔ ∀ message, parse? line = some message →
    (∀ id method params, ¬IsRequest message id method params) ∧ (∀ n, ¬IsNotification message n) ∧
      ∀ r, ¬IsResponse message r
  /-- Whole numbers are always read as themselves, so that a value can only be altered by its doubles. -/
  whole : ∀ value fits, (Number.int value fits).reread = .int value fits
  unaltered : ∀ v : Json, v.isExact → v.heard = v.normalize
  ownRequest : ∀ r : Request, ofLine (Channel.line r) =
    if r.params.all (isLegible 1) then .ok (.request (encode r.id) r.method (r.params.map heard))
    else .error .malformed
  ownNotification : ∀ n : Notification, ofLine (Channel.line n) =
    if n.params.all (isLegible 1) then .ok (.notification (.new n.method (n.params.map heard)))
    else .error .malformed
  ownResponse : ∀ r : Response, r.id ≠ .null → (r.result ≠ none ∨ r.error ≠ none) →
    if r.id.isLegible 1 && r.result.all (isLegible 1) && r.error.all fun e => e.data.all (isLegible 2) then
      ∃ answer, ofLine (Channel.line r) = .ok (.response answer) ∧ answer.id = r.id.heard ∧
        answer.outcome = (r.outcome.map heard).mapError Error.heard
    else ofLine (Channel.line r) = .error .malformed

/--
A line is a request, a notification or a response just if its method, its identifier and its outcome say so. The
lines of this side's own messages are taken for these messages, where each double is what its text is read as, and
data that are `null` are as good as none. If containers are nested too deeply or a double is out of range, the line
is malformed.
-/
theorem messages_recognized : Recognized where
  request _ _ _ _ := ofLine_eq_ok_iff
  notification _ _ := ofLine_eq_ok_iff
  response _ _ := ofLine_eq_ok_iff
  other line := by
    rw [exists_error_iff]
    constructor
    . intro h message hp
      exact ⟨fun id method params => h message (.request id method params) hp,
        fun n => h message (.notification n) hp, fun r => h message (.response r) hp⟩
    . intro h message incoming hp
      rcases h message hp with ⟨hr, hn, ha⟩
      cases incoming with
      | request id method params => exact hr id method params
      | notification n => exact hn n
      | response r => exact ha r
  whole := Number.reread_int
  unaltered _ := heard_of_isExact
  ownRequest := ofLine_request
  ownNotification := ofLine_notification
  ownResponse r hi ho := by
    rw [ofLine_response r hi ho]
    split
    . exact ⟨r.heard, rfl, rfl, r.outcome_heard⟩
    . rfl

namespace Sample

def refusal : Response :=
  ⟨version, .string "s1", none, some ⟨methodNotFound, "no method", some .null⟩⟩

end Sample

theorem messages_recognized_refusal :
    ∃ answer, ofLine (Channel.line Sample.refusal) = .ok (.response answer) ∧ answer.id = .string "s1" ∧
      answer.outcome = .error ⟨methodNotFound, "no method", none⟩ := by
  have h := messages_recognized.ownResponse Sample.refusal Json.noConfusion (.inr (Option.some_ne_none _))
  rw [if_pos (by decide)] at h
  rcases h with ⟨answer, hl, hi, ho⟩
  exact ⟨answer, hl, hi, ho⟩

namespace Sample

/-- So many lists, one within the other. -/
def nested : Nat → Json
  | 0 => .null
  | n + 1 => .list [nested n]

/-- The double that is printed as `5.0000000000000004e+32`. -/
def vast : Number :=
  .real ⟨false, 6938893903907229, 56, by decide⟩

end Sample

/-- A double can be read as another one, and 128 containers within each other cannot be read. -/
theorem messages_altered :
    ofLine (Channel.line (Request.new 1 "m" (some (.number Sample.vast)))) ≠
        .ok (.request 1 "m" (some (.number Sample.vast))) ∧
      ofLine (Channel.line (Request.new 1 "m" (some (Sample.nested 127)))) = .error .malformed := by
  constructor
  . have hv : Sample.vast.reread ≠ Sample.vast := by decide +kernel
    rw [ofLine_request]
    split
    . intro h
      injection h with h
      injection h with _ _ hp
      injection hp with hp
      injection hp with hp
      exact hv hp
    . intro h
      cases h
  . have hn : (some (Sample.nested 127)).all (isLegible 1) = false := by decide +kernel
    rw [ofLine_request]
    show (if (some (Sample.nested 127)).all (isLegible 1) then _ else _) = _
    rw [hn]
    rfl

end Incoming

end Rpc

end Turnstile
