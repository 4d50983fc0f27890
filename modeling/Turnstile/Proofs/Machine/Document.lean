import Turnstile.Hat.Fragment
import Turnstile.Proofs.Json.Record
import Turnstile.Proofs.Schema.Fetching

/-!
This module contains the documents of machines and fragments: what was read from a document is read back from
its own document, with states, transitions, prompts, definitions and hats in the same order.
-/

namespace Turnstile

open Document Fields Json

instance : Faithful StateId where
  restored _ := rfl

instance : Faithful Edge where
  restored _ := rfl

/-! ## Hats -/

namespace HatDecl

theorem ofJson_encode (hat : HatDecl) :
    Document.ofJson (encode hat) = .ok { hat with config := hat.config.normalize } := by
  have hd : Document.ofJson (encode hat) = HatDecl.ofJson (toJson hat).normalize := by
    show (Document.ofJson (toJson hat) >>= HatDecl.ofJson : Except Fault HatDecl) = _
    rw [ofJson_json]
    rfl
  rw [hd]
  unfold toJson
  split
  . next hn =>
    cases hc : hat.config with
    | null =>
      rcases hat with ⟨name, config⟩
      cases hc
      rfl
    | _ =>
      rw [hc] at hn
      cases hn
  . rfl

theorem restored_iff (hat : HatDecl) : Restored hat ↔ hat.config.normalize = hat.config := by
  rcases hat with ⟨name, config⟩
  unfold Restored
  rw [ofJson_encode]
  simp

theorem normalize_config (hv : value.normalize = value) (h : ofJson value = .ok hat) :
    hat.config.normalize = hat.config := by
  unfold ofJson at h
  split at h
  . cases h
    rfl
  . next name config =>
    cases h
    simpa [Json.normalize, Json.normalizeMembers, Json.addMember] using hv
  . cases h

instance : Stable HatDecl where
  restored {_ hat} h := by
    rcases bind_eq_ok h with ⟨value, hd, ho⟩
    exact (restored_iff hat).mpr (normalize_config (normalize_of_decode hd) ho)

end HatDecl

/-! ## Schemas -/

namespace SchemaSource

theorem referTo_of_referredName? (h : referredName? value = some name) : referTo name = value := by
  unfold referredName? at h
  split at h
  . next reference =>
    split at h
    . next rest ha =>
      split at h
      . cases h
      . cases h
        unfold referTo
        rw [String.toList_ofList, ← Reference.eq_append_of_after? ha, String.ofList_toList]
    . cases h
  . cases h

theorem toJson_ofJson (value : Json) : (ofJson value).toJson = value := by
  unfold ofJson
  split
  . rfl
  . split
    . next name hn => exact referTo_of_referredName? hn
    . rfl

theorem decode_eq (value : Json) : Document.ofJson value = .ok (ofJson value.normalize) := by
  show SchemaSource.ofJson <$> Document.ofJson value = _
  rw [ofJson_json]
  rfl

instance : Stable SchemaSource where
  restored {_ source} h := by
    rcases map_eq_ok h with ⟨value, hd, ho⟩
    subst ho
    unfold Restored
    show Document.ofJson (ofJson value).toJson = _
    rw [toJson_ofJson, decode_eq, normalize_of_decode hd]

end SchemaSource

/-! ## States and transitions -/

theorem restored_state {s : State} (hh : Restored s.hats) : Restored s := by
  have hw := Writes.required "id" (Faithful.restored s.id)
    |>.map State.mk
    |>.seq (.optional "action" s.action (fun x _ => Faithful.restored x) fun _ => rfl)
    |>.seq (.unless "hats" hh List.isEmpty_iff.mp)
    |>.seq (.unless "prompts" (Faithful.restored s.prompts) List.isEmpty_iff.mp)
    |>.seq (.optional "description" s.description (fun x _ => Faithful.restored x) fun _ => rfl)
  exact hw.decode (by decide)

instance : Stable State where
  restored h := by
    rcases exists_read_of_decode h with ⟨given, hs⟩
    rcases read_seq_eq_ok_iff.mp hs with ⟨_, description, hp, _, rfl⟩
    rcases read_seq_eq_ok_iff.mp hp with ⟨_, prompts, hr, _, rfl⟩
    rcases read_seq_eq_ok_iff.mp hr with ⟨_, hats, ha, hh, rfl⟩
    rcases read_seq_eq_ok_iff.mp ha with ⟨_, action, hi, _, rfl⟩
    rcases read_map_eq_ok_iff.mp hi with ⟨id, _, rfl⟩
    exact restored_state (restored_of_defaulted (restored_list (by simp)) hh)

theorem restored_transition {t : Transition} (hs : Restored t.schema) : Restored t := by
  have hw := Writes.required "id" (Faithful.restored t.id)
    |>.map Transition.mk
    |>.seq (.defaulted "schema" hs .any)
    |>.seq (.optional "description" t.description (fun x _ => Faithful.restored x) fun _ => rfl)
  exact hw.decode (by decide)

instance : Stable Transition where
  restored h := by
    rcases exists_read_of_decode h with ⟨given, ht⟩
    rcases read_seq_eq_ok_iff.mp ht with ⟨_, description, hs, _, rfl⟩
    rcases read_seq_eq_ok_iff.mp hs with ⟨_, schema, hi, hr, rfl⟩
    rcases read_map_eq_ok_iff.mp hi with ⟨id, _, rfl⟩
    have hany : Restored SchemaSource.any := rfl
    exact restored_transition (restored_of_defaulted hany hr)

/-! ## Machines and fragments -/

theorem eq_empty_of_isEmpty {table : Table α} (h : table.isEmpty) : table = {} := by
  rw [← Table.ofList_entries table, List.isEmpty_iff.mp h]
  rfl

theorem restored_machine {m : Machine} (hs : Restored m.states) (ht : Restored m.transitions)
    (hd : Restored m.schemas) : Restored m := by
  have hh : Restored m.hats := restored_table fun entry _ => Faithful.restored entry.2
  have hw := Writes.required "id" (Faithful.restored m.id)
    |>.map Machine.mk
    |>.seq (.required "version" (Faithful.restored m.version))
    |>.seq (.optional "description" m.description (fun x _ => Faithful.restored x) fun _ => rfl)
    |>.seq (.defaulted "states" hs [])
    |>.seq (.defaulted "xitions" ht [])
    |>.seq (.unless "schemas" hd eq_empty_of_isEmpty)
    |>.seq (.unless "hats" hh eq_empty_of_isEmpty)
  rw [List.append_assoc _ [("states", encode m.states)]] at hw
  exact hw.decode (by decide)

instance : Stable Machine where
  restored h := by
    rcases exists_read_of_decode h with ⟨given, hm⟩
    rcases read_seq_eq_ok_iff.mp hm with ⟨_, hats, hd, _, rfl⟩
    rcases read_seq_eq_ok_iff.mp hd with ⟨_, schemas, ht, hrd, rfl⟩
    rcases read_seq_eq_ok_iff.mp ht with ⟨_, transitions, hs, hrt, rfl⟩
    rcases read_seq_eq_ok_iff.mp hs with ⟨_, states, hx, hrs, rfl⟩
    rcases read_seq_eq_ok_iff.mp hx with ⟨_, description, hv, _, rfl⟩
    rcases read_seq_eq_ok_iff.mp hv with ⟨_, version, hi, _, rfl⟩
    rcases read_map_eq_ok_iff.mp hi with ⟨id, _, rfl⟩
    apply restored_machine
    . exact restored_of_defaulted (restored_list (by simp)) hrs
    . exact restored_of_defaulted (restored_list (by simp)) hrt
    . have he : Restored ({} : Definitions) := rfl
      exact restored_of_defaulted he hrd

theorem restored_fragment {f : Fragment} (hs : Restored f.states) (ht : Restored f.transitions) :
    Restored f := by
  have hp : Restored f.prompts := restored_table fun entry _ => Faithful.restored entry.2
  have hw := Writes.unless "states" hs List.isEmpty_iff.mp
    |>.map Fragment.mk
    |>.seq (.unless "xitions" ht List.isEmpty_iff.mp)
    |>.seq (.unless "prompts" hp eq_empty_of_isEmpty)
  exact hw.decode (by decide)

instance : Stable Fragment where
  restored h := by
    rcases exists_read_of_decode h with ⟨given, hf⟩
    rcases read_seq_eq_ok_iff.mp hf with ⟨_, prompts, ht, _, rfl⟩
    rcases read_seq_eq_ok_iff.mp ht with ⟨_, transitions, hs, hrt, rfl⟩
    rcases read_map_eq_ok_iff.mp hs with ⟨states, hrs, rfl⟩
    apply restored_fragment
    . exact restored_of_defaulted (restored_list (by simp)) hrs
    . exact restored_of_defaulted (restored_list (by simp)) hrt

/-! ## Stability -/

/--
What was read as a machine or as a fragment is read back from its own document. All free values are kept with
sorted members, as `Json.normalize` gives them: up to that, a schema is written as it was read, and a hat is read
as it was written.
-/
theorem documents_stable :
    (∀ (written : Written) (m : Machine), decode written = .ok m → Document.ofJson (encode m) = .ok m)
    ∧ (∀ (written : Written) (f : Fragment), decode written = .ok f → Document.ofJson (encode f) = .ok f)
    ∧ (∀ value : Json, ∃ source : SchemaSource,
        Document.ofJson value = .ok source ∧ encode source = value.normalize)
    ∧ ∀ hat : HatDecl, Document.ofJson (encode hat) = .ok { hat with config := hat.config.normalize } := by
  refine ⟨?_, ?_, ?_, HatDecl.ofJson_encode⟩
  . intro written m h
    exact Stable.restored h
  . intro written f h
    exact Stable.restored h
  . intro value
    exact ⟨_, SchemaSource.decode_eq value, SchemaSource.toJson_ofJson value.normalize⟩

namespace Sample

/-- A machine whose states, schemas and hats are not in the order of their names. -/
def written : Json :=
  .object [
    ("version", .string "1"), ("id", .string "gate"), ("note", .null),
    ("states", .list [
      .object [("id", .string "open"), ("hats", .list [.string "echo", .object [("lock", .null)]])],
      .object [("id", .string "closed"), ("prompts", .list []), ("action", .null)]]),
    ("xitions", .list [
      .list [.list [.string "open", .string "closed"], .string "push"]]),
    ("schemas", .object [("turn", .bool true), ("push", .object [("type", .string "object")])])]

def gate : Machine where
  id := "gate"
  version := "1"
  description := none
  states := [⟨⟨"open"⟩, none, [.bare "echo", .bare "lock"], [], none⟩, .new ⟨"closed"⟩]
  transitions := [⟨⟨⟨"open"⟩, ⟨"closed"⟩⟩, .provided "push", none⟩]
  schemas := .ofList [("turn", .bool true), ("push", .object [("type", .string "object")])]
  hats := {}

end Sample

/-- What is left out is filled in. -/
theorem gate_stable :
    Document.ofJson Sample.written = .ok Sample.gate ∧ Document.ofJson (encode Sample.gate) = .ok Sample.gate := by
  have hg : Document.ofJson Sample.written = .ok Sample.gate := by rfl
  exact ⟨hg, documents_stable.1 _ _ hg⟩

end Turnstile
