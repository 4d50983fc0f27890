import Turnstile.Proofs.Machine.Document
import Turnstile.Proofs.Run.Conservation

/-!
This module contains the documents of events and trails. An event is written as it was read, with all that it
carries along, and a trail is read as it was written, unless something that an event carries along has the name
of one of the members that every event has.
-/

namespace Turnstile

open Document Fields Json

/-! ## Rejections -/

instance : Faithful FailureKind where
  restored kind := by cases kind <;> rfl

instance : Faithful Violation where
  restored v := by
    have hw := Writes.required "path" (Faithful.restored v.path)
      |>.map Violation.mk
      |>.seq (.required "schema_path" (Faithful.restored v.schemaPath))
      |>.seq (.required "message" (Faithful.restored v.message))
    exact hw.decode (by decide)

instance : Faithful Failure where
  restored f := by
    have hw := Writes.required "kind" (Faithful.restored f.kind)
      |>.map Failure.mk
      |>.seq (.required "errors" (Faithful.restored f.errors))
      |>.seq (.required "attempt-number" (Faithful.restored f.attempt))
    exact hw.decode (by decide)

/-! ## Events -/

theorem Edge.encode_of_ofJson {value : Json} {edge : Edge} (h : Document.ofJson value = .ok edge) :
    encode edge = value := by
  have hs : ∀ {value : Json} {id : StateId}, Document.ofJson value = .ok id → value = .string id.name := by
    intro value id h
    cases value with
    | string name =>
      cases h
      rfl
    | _ => cases h
  match value with
  | .list [source, target] =>
    rcases bind_eq_ok h with ⟨a, ha, h⟩
    rcases bind_eq_ok h with ⟨b, hb, h⟩
    cases h
    rw [hs ha, hs hb]
    rfl
  | .list [] | .list [_] | .list (_ :: _ :: _ :: _) | .null | .bool _ | .number _ | .string _
    | .object _ => cases h

namespace Event

/-- The event with its free values as they are kept, which is with sorted members. -/
def normalize (e : Event) : Event :=
  { e with message := e.message.normalize, extra := normalizeMembers e.extra }

/-- Nothing that is carried along has the name of a member that every event has. -/
def IsPortable (e : Event) : Prop :=
  ∀ entry ∈ e.extra, ¬ isOwn entry.1

instance (e : Event) : Decidable e.IsPortable :=
  inferInstanceAs (Decidable (∀ entry ∈ e.extra, ¬ isOwn entry.1))

theorem isOwn_iff : isOwn name ↔ name ∈ own.names := by
  show _ ↔ name ∈ ["id", "message"]
  simp [isOwn]

variable {e : Event} {members : List (String × Json)}

/-- The members that an event carries along. -/
def carried (members : List (String × Json)) : List (String × Json) :=
  members.filter fun entry => !isOwn entry.1

theorem jsonMembers?_filter (members : List (String × Json)) :
    Written.jsonMembers? ((writtenMembers members).filter fun (name, _) => !name.any isOwn) =
      some (carried members) := by
  rw [← jsonMembers?_writtenMembers (carried members), carried, writtenMembers_eq_map, writtenMembers_eq_map,
    List.filter_map]
  rfl

theorem ofJson_object (members : List (String × Json)) :
    Document.ofJson (.object members) =
      (fun e : Event => { e with extra := normalizeMembers (carried members) }) <$>
        own.decode (.object (writtenMembers members)) := by
  show (do
    let event ← own.decode (.object (writtenMembers members))
    let extra ← require (Written.jsonMembers? ((writtenMembers members).filter fun (name, _) => !name.any isOwn))
    return { event with extra := normalizeMembers extra } : Except Fault Event) = _
  rw [jsonMembers?_filter]
  cases own.decode (.object (writtenMembers members)) with
  | error _ => rfl
  | ok _ => rfl

theorem ofJson_encode (h : e.IsPortable) : Document.ofJson (encode e) = .ok e.normalize := by
  have hw := Writes.required "id" (Faithful.restored e.edge)
    |>.map Event.new
    |>.seq (.defaulted "message" (ofJson_json e.message) .null)
  have hd : own.decode (.object (writtenMembers ([("id", encode e.edge), ("message", e.message)] ++ e.extra))) =
      .ok (new e.edge e.message.normalize) :=
    decode_members e.extra hw (by decide) fun entry he hm => h entry he (isOwn_iff.mpr hm)
  have hc : carried ([("id", encode e.edge), ("message", e.message)] ++ e.extra) = e.extra := by
    show carried e.extra = e.extra
    apply List.filter_eq_self.mpr
    intro entry he
    simpa using h entry he
  show Document.ofJson (.object ([("id", encode e.edge), ("message", e.message)] ++ e.extra)) = _
  rw [ofJson_object, hd, hc]
  rfl

/-- The members with the message that an event has if it is given none. -/
def completed (members : List (String × Json)) : List (String × Json) :=
  if (members.lookup "message").isSome then members else members ++ [("message", .null)]

theorem lookup_carried (members : List (String × Json)) (hn : ¬ isOwn name) :
    (carried members).reverse.lookup name = members.reverse.lookup name := by
  unfold carried
  rw [← List.filter_reverse]
  exact Table.lookup_filter (p := fun key => !isOwn key) (by simpa using hn) members.reverse

theorem lookup_carried_own (members : List (String × Json)) (hn : isOwn name) :
    (carried members).reverse.lookup name = none := by
  apply List.lookup_eq_none_iff.mpr
  intro entry he
  rw [List.mem_reverse] at he
  have := (List.mem_filter.mp he).2
  grind

theorem lookup_completed (members : List (String × Json)) (hn : name ≠ "message") :
    (completed members).reverse.lookup name = members.reverse.lookup name := by
  unfold completed
  split
  . rfl
  . rw [List.reverse_append, List.reverse_singleton, List.singleton_append, List.lookup_cons,
      beq_false_of_ne hn]

/-- The members are those of a document of the event. The last of several members with one name counts. -/
structure ReadFrom (members : List (String × Json)) (e : Event) : Prop where
  id : members.reverse.lookup "id" = some (encode e.edge)
  message : ((completed members).reverse.lookup "message").map Json.normalize = some e.message
  extra : e.extra = normalizeMembers (carried members)

theorem readFrom_of_ofJson (h : Document.ofJson (.object members) = .ok e) : ReadFrom members e := by
  rw [ofJson_object] at h
  rcases map_eq_ok h with ⟨event, hd, he⟩
  rcases decode_object_eq_ok_iff.mp hd with ⟨hr, hf⟩
  rcases read_seq_eq_ok_iff.mp hr with ⟨_, message, hi, hm, rfl⟩
  rcases read_map_eq_ok_iff.mp hi with ⟨edge, hid, rfl⟩
  subst he
  have hfirst : "id" ∈ own.names := by decide
  have hsecond : "message" ∈ own.names := by decide
  constructor
  . rw [Given.lookup_reverse_of_fault? own.names members 0 [] hf hfirst]
    rcases of_read_single_ofMembers hfirst hf hid with ⟨value, hl, hv⟩ | ⟨_, ha⟩
    . rw [hl, ← Edge.encode_of_ofJson hv]
      rfl
    . cases ha
  . unfold completed
    rcases of_read_single_ofMembers hsecond hf hm with ⟨value, hl, hv⟩ | ⟨hl, ha⟩
    . rw [hl, Option.isSome_some, if_pos rfl,
        Given.lookup_reverse_of_fault? own.names members 0 [] hf hsecond, hl]
      have hn : Document.ofJson value = .ok message := hv
      rw [ofJson_json] at hn
      cases hn
      rfl
    . rw [hl]
      cases ha
      simp [Json.normalize, new]
  . rfl

theorem ReadFrom.normalize_encode (h : ReadFrom members e) :
    (encode e).normalize = (Json.object (completed members)).normalize := by
  show Json.object (normalizeMembers ([("id", encode e.edge), ("message", e.message)] ++ e.extra)) =
    .object (normalizeMembers (completed members))
  congr 1
  apply Sorted.ext (sorted_normalizeMembers _) (sorted_normalizeMembers _)
  intro name
  have hx : e.extra.reverse.lookup name = ((carried members).reverse.lookup name).map Json.normalize := by
    rw [h.extra, Table.lookup_reverse_of_nodup (sorted_normalizeMembers _).nodup, lookup_normalizeMembers]
  rw [lookup_normalizeMembers, lookup_normalizeMembers, List.reverse_append, List.lookup_append, hx]
  by_cases hn : isOwn name
  . rw [lookup_carried_own members hn, Option.map_none, Option.none_or]
    rcases List.mem_pair.mp (isOwn_iff.mp hn) with hn | hn
    . subst hn
      rw [lookup_completed members (by decide), h.id]
      rfl
    . subst hn
      rcases Option.map_eq_some_iff.mp h.message with ⟨value, _, hv⟩
      rw [h.message, ← hv]
      exact congrArg some (normalize_normalize value)
  . have hid : name ≠ "id" := fun hid => hn (hid ▸ rfl)
    have hmessage : name ≠ "message" := fun hmessage => hn (hmessage ▸ rfl)
    have hl : [("id", encode e.edge), ("message", e.message)].reverse.lookup name = none := by
      simp [List.lookup_cons, beq_false_of_ne hid, beq_false_of_ne hmessage]
    rw [lookup_carried members hn, lookup_completed members hmessage, hl, Option.or_none, Option.map_map]
    congr 1
    funext value
    exact normalize_normalize value

/-! ## Events that were read -/

theorem exists_key_of_jsonMembers? {written : List (Option String × Written)}
    (h : Written.jsonMembers? written = some members) :
    ∀ entry ∈ members, ∃ first ∈ written, first.1 = some entry.1 := by
  induction written generalizing members with
  | nil =>
    cases h
    simp
  | cons first rest ih =>
    rcases first with ⟨key, value⟩
    unfold Written.jsonMembers? at h
    rcases Option.bind_eq_some_iff.mp h with ⟨name, hk, h⟩
    rcases Option.bind_eq_some_iff.mp h with ⟨_, _, h⟩
    rcases Option.bind_eq_some_iff.mp h with ⟨later, hr, h⟩
    cases h
    subst hk
    intro entry he
    rcases List.mem_cons.mp he with he | he
    . exact ⟨_, .head _, he ▸ rfl⟩
    . rcases ih hr entry he with ⟨first, hf, hn⟩
      exact ⟨first, .tail _ hf, hn⟩

theorem of_decode {written : Written} (h : Document.decode written = .ok e) : e.IsPortable ∧ e.normalize = e := by
  cases written with
  | object written =>
    rcases bind_eq_ok h with ⟨event, hd, h⟩
    rcases bind_eq_ok h with ⟨extra, hx, h⟩
    cases h
    rcases exists_read_of_decode hd with ⟨given, hr⟩
    rcases read_seq_eq_ok_iff.mp hr with ⟨_, message, hi, hm, rfl⟩
    rcases read_map_eq_ok_iff.mp hi with ⟨edge, _, rfl⟩
    constructor
    . intro entry he
      rcases exists_key_of_mem_normalizeMembers he with ⟨member, hx', hn⟩
      rcases exists_key_of_jsonMembers? (eq_some_of_require hx) member hx' with ⟨first, hf, hk⟩
      have := (List.mem_filter.mp hf).2
      simp_all
    . have hnull : Restored Json.null := rfl
      have hr : Restored message := restored_of_defaulted hnull hm
      unfold normalize
      rw [normalizeMembers_normalizeMembers]
      show Event.mk edge message.normalize _ = _
      rw [(restored_json_iff message).mp hr]
      rfl
  | _ => cases h

end Event

/-! ## Trails -/

namespace TrailRecord

def normalize (r : TrailRecord) : TrailRecord :=
  { r with event := r.event.normalize }

variable {r : TrailRecord}

theorem ofJson_encode (h : r.event.IsPortable) : Document.ofJson (encode r) = .ok r.normalize := by
  have hw := Writes.required "machine-id" (Faithful.restored r.machineId)
    |>.map TrailRecord.mk
    |>.seq (.required "machine-version" (Faithful.restored r.machineVersion))
    |>.seq (.required "from" (Faithful.restored r.source))
    |>.seq (.optional "to" r.target (fun id _ => Faithful.restored id) fun _ => rfl)
    |>.seq (.required "event" (Event.ofJson_encode h))
    |>.seq (.optional "failure" r.failure (fun f _ => Faithful.restored f) fun _ => rfl)
  exact hw.decode (by decide)

theorem of_decode {written : Written} (h : Document.decode written = .ok r) :
    r.event.IsPortable ∧ r.normalize = r := by
  rcases exists_read_of_decode h with ⟨given, hr⟩
  rcases read_seq_eq_ok_iff.mp hr with ⟨_, failure, he, _, rfl⟩
  rcases read_seq_eq_ok_iff.mp he with ⟨_, event, ht, hre, rfl⟩
  rcases read_seq_eq_ok_iff.mp ht with ⟨_, target, hs, _, rfl⟩
  rcases read_seq_eq_ok_iff.mp hs with ⟨_, source, hv, _, rfl⟩
  rcases read_seq_eq_ok_iff.mp hv with ⟨_, version, hi, _, rfl⟩
  rcases read_map_eq_ok_iff.mp hi with ⟨id, _, rfl⟩
  rcases of_read_single hre with ⟨_, _, _, hd⟩ | ⟨_, hd⟩
  . rcases Event.of_decode hd with ⟨hp, hn⟩
    refine ⟨hp, ?_⟩
    unfold normalize
    rw [hn]
  . cases hd

end TrailRecord

namespace Trail

def normalize (trail : Trail) : Trail :=
  trail.map TrailRecord.normalize

variable {trail : Trail}

theorem ofJson_encode (h : ∀ r ∈ trail, r.event.IsPortable) :
    Document.ofJson (encode trail) = .ok trail.normalize :=
  ofJson_encode_list fun r hr => TrailRecord.ofJson_encode (h r hr)

theorem of_decode {written : Written} (h : Document.decode written = .ok trail) :
    (∀ r ∈ trail, r.event.IsPortable) ∧ trail.normalize = trail := by
  rcases bind_eq_ok h with ⟨items, _, hm⟩
  have hr : ∀ r ∈ trail, r.event.IsPortable ∧ r.normalize = r := by
    intro r hr
    rcases exists_of_mapM_eq_ok hm r hr with ⟨item, _, hd⟩
    exact TrailRecord.of_decode hd
  constructor
  . intro r hm
    exact (hr r hm).1
  . refine (List.map_congr_left ?_).trans (List.map_id trail)
    intro r hm
    exact (hr r hm).2

end Trail

/-! ## Trails of runs -/

namespace Chronicle

variable {E : Extension} {machine : Machine} {seed : Trail} {c : Chronicle E}

theorem Kept.mem_trail (kept : Kept machine seed c) (hr : r ∈ c.loop.trail) :
    r ∈ seed ∨ ∃ dispatch ∈ c.sent, dispatch.work.event = r.event := by
  rw [kept.trail_eq, List.mem_append] at hr
  apply Or.imp_right _ hr
  intro hr
  rcases List.mem_map.mp hr with ⟨x, hx, he⟩
  have hw : x.work ∈ c.sent.map (·.work) := by
    rw [← kept.queue_eq]
    exact List.mem_append_left _ (List.mem_map_of_mem hx)
  rcases List.mem_map.mp hw with ⟨dispatch, hd, hw⟩
  refine ⟨dispatch, hd, ?_⟩
  rw [hw, ← he, x.record_wellFormed.1]

end Chronicle

open Chronicle

/--
The document of an event is the one that it was read from, with the message `null` if that has none; objects are
the same if they are after their members have been sorted. A trail is read back from its own document if nothing
that its events carry along has the name of a member that every event has; free values come back with sorted
members. So it is with every trail that was read, which already has its free values sorted, and with the trail of
every run that goes on from such a trail with such events.
-/
theorem trails_restored :
    (∀ (value : Json) (e : Event), Document.ofJson value = .ok e →
      ∃ members, value = .object members
        ∧ (encode e).normalize = (Json.object (Event.completed members)).normalize)
    ∧ (∀ trail : Trail, (∀ r ∈ trail, r.event.IsPortable) →
        Document.ofJson (encode trail) = .ok trail.normalize)
    ∧ (∀ (written : Written) (trail : Trail), Document.decode written = .ok trail →
        (∀ r ∈ trail, r.event.IsPortable) ∧ trail.normalize = trail)
    ∧ ∀ (E : Extension) (machine : Machine) (context : Context E) (seed : Trail) (config : RunConfig) (l : Loop E),
        Loop.start machine context seed config = .ok l → ∀ moves : List (Move E),
        let c := (begin l).playAll moves
        (∀ r ∈ seed, r.event.IsPortable) → (∀ dispatch ∈ c.sent, dispatch.work.event.IsPortable) →
        Document.ofJson (encode c.loop.trail) = .ok c.loop.trail.normalize := by
  refine ⟨?_, ?_, ?_, ?_⟩
  . intro value e h
    cases value with
    | object members => exact ⟨members, rfl, (Event.readFrom_of_ofJson h).normalize_encode⟩
    | _ => cases h
  . intro trail h
    exact Trail.ofJson_encode h
  . intro written trail h
    exact Trail.of_decode h
  . intro E machine context seed config l h moves c hseed hsent
    apply Trail.ofJson_encode
    intro r hr
    rcases (kept_playAll h moves).mem_trail hr with hr | ⟨dispatch, hd, he⟩
    . exact hseed r hr
    . exact he ▸ hsent dispatch hd

namespace Sample

/-- An event without a message that carries a note along. -/
def noted : Json :=
  .object [("note", .object [("by", .string "guard")]), ("id", .list [.string "work", .string "end"])]

def notedEvent : Event :=
  ⟨⟨⟨"work"⟩, .final⟩, .null, [("note", .object [("by", .string "guard")])]⟩

/-- A rejection, a crossing, and a record that is neither. -/
def trail : Trail :=
  [⟨"gate", "1", ⟨"work"⟩, none, notedEvent,
      some ⟨.validation, [⟨"/a", "/type", "wrong"⟩, ⟨"", "/required", "missing"⟩], 2⟩⟩,
    ⟨"gate", "1", ⟨"work"⟩, some .final, notedEvent, none⟩,
    ⟨"gate", "1", ⟨"work"⟩, none, leaving, none⟩]

end Sample

theorem trails_restored_gate :
    Document.ofJson Sample.noted = .ok Sample.notedEvent
    ∧ (∃ members, Sample.noted = .object members
      ∧ (encode Sample.notedEvent).normalize = (Json.object (Event.completed members)).normalize)
    ∧ (∀ r ∈ Sample.trail, r.event.IsPortable)
    ∧ Document.ofJson (encode Sample.trail) = .ok Sample.trail
    ∧ Sample.trail.normalize = Sample.trail
    ∧ Document.ofJson (encode Sample.chronicle.loop.trail) = .ok Sample.chronicle.loop.trail.normalize := by
  have hn : Document.ofJson Sample.noted = .ok Sample.notedEvent := by rfl
  have hp : ∀ r ∈ Sample.trail, r.event.IsPortable := by decide
  have hs : Loop.start Sample.machine Sample.context [] .standard = .ok Sample.loop := by rfl
  rcases trails_restored with ⟨hevent, htrail, hread, hrun⟩
  have ht : Document.ofJson (encode Sample.trail) = .ok Sample.trail := htrail _ hp
  refine ⟨hn, hevent _ _ hn, hp, ht, (hread _ _ ht).2, ?_⟩
  exact hrun _ _ _ _ _ _ hs Sample.moves (by simp) (by decide +kernel)

end Turnstile
