import Turnstile.Json.Record
import Turnstile.Proofs.Json.Order
import Turnstile.Proofs.Result

/-!
This module contains the values that are read back from their documents: `Document.Restored` says that of one
value, `Stable` that of every value that was read from some document, and `Faithful` that of all values of a
type. A record is restored if each of its fields is.
-/

namespace Turnstile

open Document

def Document.Restored [Document α] (x : α) : Prop :=
  ofJson (encode x) = .ok x

class Stable (α : Type) [Document α] : Prop where
  restored : ∀ {written : Written} {x : α}, decode written = .ok x → Restored x

class Faithful (α : Type) [Document α] : Prop where
  restored : ∀ x : α, Restored x

instance [Document α] [Faithful α] : Stable α where
  restored _ := Faithful.restored _

theorem eq_some_of_require {x? : Option α} (h : require x? = .ok x) : x? = some x := by
  cases x? with
  | none => cases h
  | some y =>
    cases h
    rfl

/-! ## Plain values -/

theorem ofJson_json (v : Json) : (ofJson v : Except Fault Json) = .ok v.normalize := by
  show Json.normalize <$> require v.written.json? = _
  rw [Json.json?_written]
  rfl

theorem restored_json_iff (v : Json) : Restored v ↔ v.normalize = v := by
  unfold Restored
  show (ofJson v : Except Fault Json) = _ ↔ _
  rw [ofJson_json]
  simp

theorem normalize_of_decode {written : Written} {v : Json} (h : decode written = .ok v) :
    v.normalize = v := by
  rcases map_eq_ok h with ⟨u, _, he⟩
  rw [← he]
  apply Json.normalize_normalize

instance : Stable Json where
  restored h := (restored_json_iff _).mpr (normalize_of_decode h)

instance : Faithful String where
  restored _ := rfl

instance : Faithful Bool where
  restored _ := rfl

instance : Faithful UInt64 where
  restored n := by
    have : (Number.ofUInt64 n).toUInt64? = some n := by simp [Number.ofUInt64, Number.toUInt64?]
    show require (Number.ofUInt64 n).toUInt64? = _
    rw [this]
    rfl

instance : Faithful Int64 where
  restored n := by
    have : (Number.ofInt64 n).toInt64? = some n := by
      have := n.toInt_lt
      simp [Number.ofInt64, Number.toInt64?]
      omega
    show require (Number.ofInt64 n).toInt64? = _
    rw [this]
    rfl

instance : Faithful UInt32 where
  restored n := by
    have hd : decode (encode n.toUInt64).written = .ok n.toUInt64 := Faithful.restored n.toUInt64
    show (do
      let m : UInt64 ← decode (encode n.toUInt64).written
      if m.toNat < UInt32.size then .ok m.toUInt32 else .error .malformed) = Except.ok n
    rw [hd]
    have : n.toNat < UInt32.size := n.toNat_lt
    simp [bind, Except.bind, this]

/-! ## Lists and tables -/

section Collections

variable {α : Type} [Document α]

theorem ofJson_encode_list {xs : List α} {f : α → α} (h : ∀ x ∈ xs, ofJson (encode x) = .ok (f x)) :
    ofJson (encode xs) = .ok (xs.map f) := by
  show (Json.writtenItems (xs.map encode)).mapM decode = _
  rw [mapM_eq_ok_iff, Json.writtenItems_eq_map, List.map_map, List.forall₂_map_left_iff,
    List.forall₂_map_right_iff]
  apply List.forall₂_same.mpr
  exact h

theorem restored_list {xs : List α} (h : ∀ x ∈ xs, Restored x) : Restored xs := by
  have := ofJson_encode_list (f := id) h
  rwa [List.map_id] at this

theorem forall_restored_of_decode [Stable α] {xs : List α} (h : decode written = .ok xs) :
    ∀ x ∈ xs, Restored x := by
  rcases bind_eq_ok h with ⟨items, _, hm⟩
  intro x hx
  rcases exists_of_mapM_eq_ok hm x hx with ⟨item, _, hd⟩
  exact Stable.restored hd

instance [Stable α] : Stable (List α) where
  restored h := restored_list (forall_restored_of_decode h)

instance [Faithful α] : Faithful (List α) where
  restored _ := restored_list fun x _ => Faithful.restored x

theorem restored_table {table : Table α} (h : ∀ entry ∈ table.entries, Restored entry.2) :
    Restored table := by
  let members := table.entries.map fun (name, value) => (name, encode value)
  let step : Option String × Written → Except Fault (String × α) :=
    fun member => do return (← require member.1, ← decode member.2)
  have hm : (Json.writtenMembers members).mapM step = .ok table.entries := by
    rw [mapM_eq_ok_iff, Json.writtenMembers_eq_map, List.map_map, List.forall₂_map_left_iff]
    apply List.forall₂_same.mpr
    intro entry he
    have hd : decode (encode entry.2).written = .ok entry.2 := h entry he
    show (do return (← require (some entry.1), ← decode (encode entry.2).written)) = Except.ok entry
    rw [hd]
    rfl
  show (do
    let entries ← (Json.writtenMembers members).mapM step
    return Table.ofList entries) = Except.ok table
  rw [hm]
  show Except.ok (Table.ofList table.entries) = _
  rw [Table.ofList_entries]

theorem forall_restored_of_decode_table [Stable α] {table : Table α} (h : decode written = .ok table) :
    ∀ entry ∈ table.entries, Restored entry.2 := by
  cases written with
  | object members =>
    rcases bind_eq_ok h with ⟨entries, hm, ht⟩
    cases ht
    intro entry he
    rcases exists_of_mapM_eq_ok hm entry (Table.mem_of_mem_ofList he) with ⟨member, _, hd⟩
    rcases bind_eq_ok hd with ⟨name, _, hd⟩
    rcases bind_eq_ok hd with ⟨value, hv, hd⟩
    cases hd
    exact Stable.restored hv
  | _ => cases h

instance [Stable α] : Stable (Table α) where
  restored h := restored_table (forall_restored_of_decode_table h)

end Collections

/-! ## Members that are given -/

namespace Given

theorem fault?_ofMembers_eq_none_iff (names : List String) (members : List (String × Json))
    (position : Nat) (seen : List String) :
    (ofMembers names position seen (Json.writtenMembers members)).fault? = none ↔
      ((members.map Prod.fst).filter names.contains).Nodup ∧
        ∀ name ∈ (members.map Prod.fst).filter names.contains, name ∉ seen := by
  induction members generalizing position seen with
  | nil => simp [ofMembers, Json.writtenMembers]
  | cons member rest ih =>
    rcases member with ⟨key, value⟩
    unfold Json.writtenMembers ofMembers
    dsimp only
    by_cases hn : names.contains key
    . by_cases hs : seen.contains key
      . simp_all
      . rw [if_pos hn, if_neg hs, ih]
        simp_all
        grind
    . rw [if_neg hn, if_pos (Json.isComplete_written _), ih]
      simp_all

theorem lookup_ofMembers (names : List String) (members : List (String × Json)) (position : Nat)
    (seen : List String)
    (h : (ofMembers names position seen (Json.writtenMembers members)).fault? = none) (hn : name ∈ names) :
    ((ofMembers names position seen (Json.writtenMembers members)).values.lookup name).map Prod.snd =
      (members.lookup name).map Json.written := by
  induction members generalizing position seen with
  | nil => rfl
  | cons member rest ih =>
    rcases member with ⟨key, value⟩
    unfold Json.writtenMembers ofMembers at h ⊢
    dsimp only at h ⊢
    by_cases hm : names.contains key
    . by_cases hs : seen.contains key
      . rw [if_pos hm, if_pos hs] at h
        cases h
      . rw [if_pos hm, if_neg hs] at h ⊢
        have := ih _ _ h
        by_cases he : name = key
        . simp [he]
        . simpa [List.lookup_cons, beq_false_of_ne he] using this
    . rw [if_neg hm, if_pos (Json.isComplete_written _)] at h ⊢
      have he : name ≠ key := by
        intro he
        simp_all
      simpa [List.lookup_cons, beq_false_of_ne he] using ih _ _ h

theorem lookup_reverse_of_fault? (names : List String) (members : List (String × Json)) (position : Nat)
    (seen : List String)
    (h : (ofMembers names position seen (Json.writtenMembers members)).fault? = none) (hn : name ∈ names) :
    members.reverse.lookup name = members.lookup name := by
  have hp : names.contains name := by simpa using hn
  have hk := ((fault?_ofMembers_eq_none_iff names members position seen).mp h).1
  rw [List.filter_map] at hk
  rw [← Table.lookup_filter hp members, ← Table.lookup_filter hp members.reverse, List.filter_reverse]
  exact Table.lookup_reverse_of_nodup hk name

end Given

/-! ## Fields -/

namespace Fields

/-- The fields take what they need from the members, and make the value of it. -/
structure Writes (fields : Fields α) (members : List (String × Json)) (x : α) : Prop where
  keys : (members.map Prod.fst).Sublist fields.names
  read : fields.names.Nodup → ∀ given : Given,
    (∀ name ∈ fields.names, (given.values.lookup name).map Prod.snd = (members.lookup name).map Json.written) →
    fields.read given = .ok x

variable {α β : Type} {fields : Fields α} {members : List (String × Json)} {x : α}

theorem Writes.lookup_eq_none (h : Writes fields members x) (hn : name ∉ fields.names) :
    members.lookup name = none := by
  apply List.lookup_eq_none_iff.mpr
  intro entry he
  have := h.keys.subset (List.mem_map_of_mem he)
  grind

theorem Writes.map (f : α → β) (h : Writes fields members x) : Writes (f <$> fields) members (f x) where
  keys := h.keys
  read hn given hg := by
    show f <$> fields.read given = _
    rw [h.read hn given hg]
    rfl

theorem Writes.seq {functions : Fields (α → β)} {others : List (String × Json)} (hf : Writes functions others f)
    (hx : Writes fields members x) : Writes (functions <*> fields) (others ++ members) (f x) where
  keys := by
    rw [List.map_append]
    exact hf.keys.append hx.keys
  read hn given hg := by
    rcases List.nodup_append.mp hn with ⟨hfirst, hsecond, hd⟩
    have hr : functions.read given = .ok f := by
      apply hf.read hfirst
      intro name hm
      have hl : members.lookup name = none := hx.lookup_eq_none fun h => hd name hm name h rfl
      rw [hg name (List.mem_append_left _ hm), List.lookup_append, hl, Option.or_none]
    have hs : fields.read given = .ok x := by
      apply hx.read hsecond
      intro name hm
      have hl : others.lookup name = none := hf.lookup_eq_none fun h => hd name h name hm rfl
      rw [hg name (List.mem_append_right _ hm), List.lookup_append, hl, Option.none_or]
    show (match functions.read given, fields.read given with
      | .ok f, .ok x => Except.ok (f x)
      | .error a, .error b => .error (first a b)
      | .error a, .ok _ => .error a
      | .ok _, .error b => .error b) = _
    rw [hr, hs]

theorem read_single_of_some {absent : Except Fault α} {present : Written → Except Fault α} {given : Given}
    (h : (given.values.lookup name).map Prod.snd = some written) (hp : present written = .ok x) :
    (single name absent present).read given = .ok x := by
  rcases Option.map_eq_some_iff.mp h with ⟨entry, he, hw⟩
  unfold single
  dsimp only
  rw [he]
  dsimp only
  rw [hw, hp]
  rfl

theorem read_single_of_none {present : Written → Except Fault α} {given : Given}
    (h : (given.values.lookup name).map Prod.snd = none) :
    (single name (.ok x) present).read given = .ok x := by
  unfold single
  dsimp only
  rw [Option.map_eq_none_iff.mp h]
  rfl

section Pieces

variable [Document α] {y : α} (name : String)

theorem Writes.required (h : ofJson (encode x) = .ok y) : Writes (required name) [(name, encode x)] y where
  keys := .refl _
  read _ given hg := by
    have hl := hg name (.head _)
    rw [List.lookup_cons_self] at hl
    exact read_single_of_some hl h

theorem Writes.defaulted (h : ofJson (encode x) = .ok y) (otherwise : α) :
    Writes (defaulted name otherwise) [(name, encode x)] y where
  keys := .refl _
  read _ given hg := by
    have hl := hg name (.head _)
    rw [List.lookup_cons_self] at hl
    exact read_single_of_some hl h

theorem Writes.unless {condition : Bool} {otherwise : α} (h : Restored x) (hd : condition → x = otherwise) :
    Writes (Fields.defaulted name otherwise) (Json.memberUnless condition name x) x := by
  cases condition with
  | false => exact .defaulted name h otherwise
  | true =>
    have hx := hd rfl
    subst hx
    refine ⟨List.nil_sublist _, ?_⟩
    intro _ given hg
    exact read_single_of_none (hg name (.head _))

theorem Writes.optional (x? : Option α) (h : ∀ x, x? = some x → Restored x)
    (hn : ∀ x : α, (encode x).written.isNull = false) :
    Writes (Fields.optional name) (Json.optionalMember name x?) x? := by
  cases x? with
  | none =>
    refine ⟨List.nil_sublist _, ?_⟩
    intro _ given hg
    exact read_single_of_none (hg name (.head _))
  | some x =>
    refine ⟨.refl _, ?_⟩
    intro _ given hg
    have hl := hg name (.head _)
    unfold Json.optionalMember at hl
    rw [List.lookup_cons_self] at hl
    apply read_single_of_some hl
    have hx : Document.decode (encode x).written = .ok x := h x rfl
    rw [hn, hx]
    rfl

/-- An optional field that is given may be `null`, which is as good as leaving it out. -/
theorem Writes.optional_of_decode (value? : Option Json) (x? : Option α) (hn : value? = none → x? = none)
    (hs : ∀ value, value? = some value →
      (if value.written.isNull then .ok none else some <$> Document.decode value.written : Except Fault _) =
        .ok x?) :
    Writes (Fields.optional name) (value?.toList.map fun value => (name, value)) x? := by
  cases value? with
  | none =>
    rw [hn rfl]
    refine ⟨List.nil_sublist _, ?_⟩
    intro _ given hg
    exact read_single_of_none (hg name (.head _))
  | some value =>
    refine ⟨.refl _, ?_⟩
    intro _ given hg
    have hl := hg name (.head _)
    rw [Option.toList_some, List.map_singleton, List.lookup_cons_self] at hl
    exact read_single_of_some hl (hs value rfl)

end Pieces

theorem decode_object_eq_ok_iff {members : List (Option String × Written)} :
    fields.decode (.object members) = .ok x ↔
      fields.read (.ofMembers fields.names 0 [] members) = .ok x ∧
        (Given.ofMembers fields.names 0 [] members).fault? = none := by
  unfold decode
  dsimp only [bind, Except.bind]
  split <;> simp_all

theorem decode_members (others : List (String × Json)) (hw : Writes fields members x)
    (hn : fields.names.Nodup) (ho : ∀ entry ∈ others, entry.1 ∉ fields.names) :
    fields.decode (.object (Json.writtenMembers (members ++ others))) = .ok x := by
  have hk : ((members ++ others).map Prod.fst).filter fields.names.contains = members.map Prod.fst := by
    rw [List.map_append, List.filter_append]
    have hm : (members.map Prod.fst).filter fields.names.contains = members.map Prod.fst := by
      apply List.filter_eq_self.mpr
      intro key hk
      simpa using hw.keys.subset hk
    have hs : (others.map Prod.fst).filter fields.names.contains = [] := by
      apply List.filter_eq_nil_iff.mpr
      intro key hk
      rcases List.mem_map.mp hk with ⟨entry, he, hf⟩
      subst hf
      simpa using ho entry he
    rw [hm, hs, List.append_nil]
  have hf : (Given.ofMembers fields.names 0 [] (Json.writtenMembers (members ++ others))).fault? = none := by
    rw [Given.fault?_ofMembers_eq_none_iff, hk]
    exact ⟨hw.keys.nodup hn, by simp⟩
  have hr : fields.read (Given.ofMembers fields.names 0 [] (Json.writtenMembers (members ++ others))) =
      .ok x := by
    apply hw.read hn
    intro name hm
    rw [Given.lookup_ofMembers _ _ _ _ hf hm, List.lookup_append]
    have hl : others.lookup name = none := by
      apply List.lookup_eq_none_iff.mpr
      intro entry he
      simpa using fun he' : name = entry.1 => ho entry he (he' ▸ hm)
    rw [hl, Option.or_none]
  exact decode_object_eq_ok_iff.mpr ⟨hr, hf⟩

theorem Writes.decode (hw : Writes fields members x) (hn : fields.names.Nodup) :
    fields.decode (Json.object members).written = .ok x := by
  have := decode_members [] hw hn (by simp)
  rwa [List.append_nil] at this

/-- The order of the members of an object is of no account. -/
theorem Writes.decode_of_lookup {others : List (String × Json)} (hw : Writes fields members x)
    (hn : fields.names.Nodup) (ho : (others.map Prod.fst).Nodup)
    (hl : ∀ name ∈ fields.names, others.lookup name = members.lookup name) :
    fields.decode (Json.object others).written = .ok x := by
  have hf : (Given.ofMembers fields.names 0 [] (Json.writtenMembers others)).fault? = none := by
    rw [Given.fault?_ofMembers_eq_none_iff]
    exact ⟨ho.filter _, by simp⟩
  refine decode_object_eq_ok_iff.mpr ⟨hw.read hn _ ?_, hf⟩
  intro name hm
  rw [Given.lookup_ofMembers _ _ _ _ hf hm, hl name hm]

/-! ## What fields have read -/

theorem decode_list_eq_ok_iff {items : List Written} :
    fields.decode (.list items) = .ok x ↔
      fields.read (.ofItems fields.names items) = .ok x ∧ (Given.ofItems fields.names items).fault? = none := by
  unfold decode
  dsimp only [bind, Except.bind]
  split <;> simp_all

theorem exists_read_of_decode {written : Written} (h : fields.decode written = .ok x) :
    ∃ given, fields.read given = .ok x := by
  cases written with
  | object members => exact ⟨_, (decode_object_eq_ok_iff.mp h).1⟩
  | list items => exact ⟨_, (decode_list_eq_ok_iff.mp h).1⟩
  | _ => cases h

theorem read_map_eq_ok_iff {f : α → β} {given : Given} :
    (f <$> fields).read given = .ok y ↔ ∃ x, fields.read given = .ok x ∧ f x = y := by
  show f <$> fields.read given = _ ↔ _
  cases fields.read given with
  | error _ => simp [Functor.map, Except.map]
  | ok x => simp [Functor.map, Except.map]

theorem read_seq_eq_ok_iff {functions : Fields (α → β)} {given : Given} :
    (functions <*> fields).read given = .ok y ↔
      ∃ f x, functions.read given = .ok f ∧ fields.read given = .ok x ∧ f x = y := by
  show (match functions.read given, fields.read given with
    | .ok f, .ok x => Except.ok (f x)
    | .error a, .error b => .error (first a b)
    | .error a, .ok _ => .error a
    | .ok _, .error b => .error b) = _ ↔ _
  cases functions.read given with
  | error _ => cases fields.read given <;> simp
  | ok f => cases fields.read given <;> simp

theorem of_read_single {absent : Except Fault α} {present : Written → Except Fault α} {given : Given}
    (h : (single name absent present).read given = .ok x) :
    ((∃ position written, given.values.lookup name = some (position, written) ∧ present written = .ok x)) ∨
      (given.values.lookup name = none ∧ absent = .ok x) := by
  unfold single at h
  dsimp only at h
  split at h
  . next position written hl =>
    left
    refine ⟨position, written, hl, ?_⟩
    cases hp : present written with
    | error _ =>
      rw [hp] at h
      cases h
    | ok y =>
      rw [hp] at h
      cases h
      rfl
  . next hl =>
    right
    refine ⟨hl, ?_⟩
    cases absent with
    | error _ => cases h
    | ok y =>
      cases h
      rfl

theorem of_read_single_ofMembers {names : List String} {members : List (String × Json)}
    {absent : Except Fault α} {present : Written → Except Fault α} (hn : name ∈ names)
    (hf : (Given.ofMembers names 0 [] (Json.writtenMembers members)).fault? = none)
    (h : (single name absent present).read (Given.ofMembers names 0 [] (Json.writtenMembers members)) = .ok x) :
    (∃ value, members.lookup name = some value ∧ present value.written = .ok x) ∨
      (members.lookup name = none ∧ absent = .ok x) := by
  have hl := Given.lookup_ofMembers names members 0 [] hf hn
  rcases of_read_single h with ⟨_, _, hg, hp⟩ | ⟨hg, ha⟩
  . rw [hg] at hl
    rcases Option.map_eq_some_iff.mp hl.symm with ⟨value, hv, he⟩
    subst he
    exact .inl ⟨value, hv, hp⟩
  . rw [hg] at hl
    exact .inr ⟨Option.map_eq_none_iff.mp hl.symm, ha⟩

section Pieces

variable [Document α] [Stable α] {given : Given}

theorem restored_of_defaulted (hd : Restored otherwise) (h : (defaulted name otherwise).read given = .ok x) :
    Restored x := by
  rcases of_read_single h with ⟨_, _, _, hr⟩ | ⟨_, hr⟩
  . exact Stable.restored hr
  . cases hr
    exact hd

end Pieces

end Fields

end Turnstile
