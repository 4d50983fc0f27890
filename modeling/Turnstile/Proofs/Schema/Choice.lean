import Turnstile.Proofs.Schema.Nesting

/-!
This module contains what choices of schemas and schemas of lists accept, whatever references in their parts
lead to: a choice of exactly one, a choice of any, and lists that are not empty.
-/

namespace Turnstile

/-- One place of the list holds an element with the property, and no other place does. -/
def ExactlyOne (P : α → Prop) (xs : List α) : Prop :=
  ∃! n : Nat, ∃ x, xs[n]? = some x ∧ P x

section ExactlyOne

variable {P : α → Prop} {Q : β → Prop} {x : α} {xs : List α} {ys : List β}

theorem exactlyOne_nil : ¬ ExactlyOne P [] := by
  intro ⟨n, ⟨x, hx, _⟩, _⟩
  cases hx

theorem exactlyOne_cons_of_neg (h : ¬ P x) : ExactlyOne P (x :: xs) ↔ ExactlyOne P xs := by
  constructor
  . intro ⟨n, ⟨y, hy, hp⟩, hu⟩
    cases n with
    | zero =>
      cases hy
      exact absurd hp h
    | succ n =>
      refine ⟨n, ⟨y, hy, hp⟩, ?_⟩
      intro m hm
      have := hu (m + 1) hm
      omega
  . intro ⟨n, ⟨y, hy, hp⟩, hu⟩
    refine ⟨n + 1, ⟨y, hy, hp⟩, ?_⟩
    intro m ⟨z, hz, hq⟩
    cases m with
    | zero =>
      cases hz
      exact absurd hq h
    | succ m => rw [hu m ⟨z, hz, hq⟩]

theorem exactlyOne_cons_of_pos (h : P x) : ExactlyOne P (x :: xs) ↔ ∀ y ∈ xs, ¬ P y := by
  constructor
  . intro ⟨n, _, hu⟩ y hy hp
    rcases List.getElem?_of_mem hy with ⟨m, hm⟩
    have h0 := hu 0 ⟨x, rfl, h⟩
    have h1 := hu (m + 1) ⟨y, hm, hp⟩
    omega
  . intro hn
    refine ⟨0, ⟨x, rfl, h⟩, ?_⟩
    intro m ⟨y, hy, hp⟩
    cases m with
    | zero => rfl
    | succ m => exact absurd hp (hn y (List.mem_of_getElem? hy))

theorem exactlyOne_iff_length_filter {p : α → Bool} :
    ExactlyOne (fun x => p x = true) xs ↔ (xs.filter p).length = 1 := by
  induction xs with
  | nil => simp [exactlyOne_nil]
  | cons x xs ih =>
    by_cases h : p x = true
    . rw [exactlyOne_cons_of_pos (P := fun x => p x = true) h, List.filter_cons_of_pos h]
      simp
    . rw [exactlyOne_cons_of_neg (P := fun x => p x = true) h, List.filter_cons_of_neg h, ih]

theorem exists_getElem?_iff {R : α → β → Prop} (h : List.Forall₂ R xs ys)
    (hr : ∀ x y, R x y → (P x ↔ Q y)) (n : Nat) :
    (∃ x, xs[n]? = some x ∧ P x) ↔ ∃ y, ys[n]? = some y ∧ Q y := by
  induction h generalizing n with
  | nil => simp
  | cons hxy _ ih =>
    cases n with
    | zero => simp [hr _ _ hxy]
    | succ n => exact ih n

theorem exactlyOne_of_forall₂ {R : α → β → Prop} (h : List.Forall₂ R xs ys)
    (hr : ∀ x y, R x y → (P x ↔ Q y)) : ExactlyOne P xs ↔ ExactlyOne Q ys :=
  existsUnique_congr fun n => exists_getElem?_iff h hr n

theorem exactlyOne_congr {P' : α → Prop} (h : ∀ x ∈ xs, P x ↔ P' x) :
    ExactlyOne P xs ↔ ExactlyOne P' xs := by
  apply existsUnique_congr
  intro n
  constructor
  . intro ⟨x, hx, hp⟩
    exact ⟨x, hx, (h x (List.mem_of_getElem? hx)).mp hp⟩
  . intro ⟨x, hx, hp⟩
    exact ⟨x, hx, (h x (List.mem_of_getElem? hx)).mpr hp⟩

/-- An element without the property makes no difference at the end. -/
theorem exactlyOne_append_of_neg (h : ¬ P x) : ExactlyOne P (xs ++ [x]) ↔ ExactlyOne P xs := by
  induction xs with
  | nil => exact exactlyOne_cons_of_neg h
  | cons y xs ih =>
    by_cases hy : P y
    . rw [List.cons_append, exactlyOne_cons_of_pos hy, exactlyOne_cons_of_pos hy]
      simp [or_imp, forall_and, h]
    . rw [List.cons_append, exactlyOne_cons_of_neg hy, exactlyOne_cons_of_neg hy, ih]

end ExactlyOne

namespace Schema

variable {refer : String → Except String Subschema} {draft : Draft} {items : List Json}
  {schema d : Json} {s : Subschema}

def Readable (refer : String → Except String Subschema) (schema : Json) : Prop :=
  ∃ s, compile refer .latest schema = .ok s

def Admits (refer : String → Except String Subschema) (schema d : Json) : Prop :=
  ∃ s, compile refer .latest schema = .ok s ∧ s.accepts d

theorem Admits.readable (h : Admits refer schema d) : Readable refer schema := by
  rcases h with ⟨s, hs, _⟩
  exact ⟨s, hs⟩

/-- A schema that names its draft follows it wherever it is read. -/
theorem compile_latest (h : Draft.ofSchema? .latest schema = some draft) :
    compile refer draft schema = compile refer .latest schema := by
  cases schema with
  | object members =>
    have hd : Draft.ofSchema? draft (.object members) = some draft := by
      unfold Draft.ofSchema? at *
      split
      . next hs =>
        rw [hs] at h
        exact h
      . rfl
    unfold compile
    dsimp only
    rw [h, hd]
  | bool value => cases value <;> rfl
  | _ => rfl

theorem nests_of_read (hf : conforms .latest schema) (hb : isBare schema) (hs : read schema = .ok s) :
    Nests schema s := by
  refine ⟨hf, hb, ?_⟩
  intro refer
  unfold read at hs
  split at hs
  . cases hs
  . next draft hd =>
    split at hs
    . rw [← compile_latest hd, ← hs]
      exact compile_congr hb
    . cases hs

theorem exists_map_eq_ok_iff {x : Except ε α} {f : α → β} :
    (∃ b, f <$> x = .ok b) ↔ ∃ a, x = .ok a := by
  cases x with
  | error e => simp [Functor.map, Except.map]
  | ok a => simp [Functor.map, Except.map]

theorem admits_iff (h : compile refer .latest schema = .ok s) : Admits refer schema d ↔ s.accepts d := by
  constructor
  . intro ⟨t, ht, ha⟩
    cases h.symm.trans ht
    exact ha
  . intro ha
    exact ⟨s, h, ha⟩

theorem compileItems_eq_mapM : compileItems refer draft items = items.mapM (compile refer draft) := by
  induction items with
  | nil => rfl
  | cons item rest ih =>
    unfold compileItems
    rw [List.mapM_cons, ih]

theorem exists_compileItems_iff :
    (∃ schemas, compileItems refer .latest items = .ok schemas) ↔ ∀ item ∈ items, Readable refer item := by
  rw [compileItems_eq_mapM, exists_mapM_iff]
  rfl

theorem accepts_oneOf_iff {branches : List Checker} :
    (Checker.oneOf branches).accepts d ↔ ExactlyOne (fun branch => branch.accepts d = true) branches := by
  rw [exactlyOne_iff_length_filter]
  show (Checker.oneOf branches d .root).isEmpty ↔ _
  unfold Checker.oneOf
  split
  . next h => simp [h]
  . next h => simp [h]
  . next h _ => simpa using h

/-- Exactly one of the schemas. -/
def oneOf (schemas : List Json) : Json :=
  .object [("oneOf", .list schemas)]

theorem compile_oneOf (refer : String → Except String Subschema) (items : List Json) :
    ∃ coverage, compile refer .latest (oneOf items) =
      (fun schemas => ⟨.all [.oneOf (schemas.map Subschema.check)], coverage⟩) <$>
        compileItems refer .latest items := by
  generalize h : compileItems refer .latest items = schemas
  have hm : compileMembers refer .latest [("oneOf", .list items)] = [("oneOf", .many schemas)] := by
    rw [← h]
    rfl
  have hd : Draft.ofSchema? .latest (oneOf items) = some .latest := rfl
  unfold oneOf compile at *
  dsimp only
  rw [hd, Option.getD_some, hm]
  cases schemas with
  | error e => exact ⟨.none, rfl⟩
  | ok schemas => exact ⟨_, rfl⟩

theorem readable_oneOf_iff : Readable refer (oneOf items) ↔ ∀ item ∈ items, Readable refer item := by
  rcases compile_oneOf refer items with ⟨coverage, hc⟩
  unfold Readable
  rw [hc, exists_map_eq_ok_iff, exists_compileItems_iff]
  rfl

theorem admits_oneOf_iff (h : ∀ item ∈ items, Readable refer item) :
    Admits refer (oneOf items) d ↔ ExactlyOne (fun item => Admits refer item d) items := by
  rcases compile_oneOf refer items with ⟨coverage, hc⟩
  rcases exists_compileItems_iff.mpr h with ⟨schemas, hs⟩
  rw [hs] at hc
  rw [admits_iff hc]
  unfold Subschema.accepts
  rw [Checker.accepts_all_iff, List.forall_mem_singleton, accepts_oneOf_iff]
  symm
  apply exactlyOne_of_forall₂ (R := fun item c => ∃ s, compile refer .latest item = .ok s ∧ c = s.check)
  . rw [List.forall₂_map_right_iff]
    rw [compileItems_eq_mapM, mapM_eq_ok_iff] at hs
    exact hs.imp fun item s h => ⟨s, h, rfl⟩
  . intro item c ⟨s, hs, hc⟩
    rw [admits_iff hs, hc]
    rfl

theorem conforms_oneOf_iff (hn : items ≠ []) :
    conforms .latest (oneOf items) ↔ ∀ item ∈ items, conforms .latest item := by
  rw [← allConform_iff]
  cases items with
  | nil => exact absurd rfl hn
  | cons first rest =>
    show (true && true && (allConform .latest (first :: rest) && true)) = true ↔ _
    simp

theorem readable_anyOf_iff : Readable refer (anyOf items) ↔ ∀ item ∈ items, Readable refer item := by
  rcases compile_anyOf refer items with ⟨coverage, hc⟩
  unfold Readable
  rw [hc, exists_map_eq_ok_iff, exists_compileItems_iff]
  rfl

theorem admits_anyOf_iff (h : ∀ item ∈ items, Readable refer item) :
    Admits refer (anyOf items) d ↔ ∃ item ∈ items, Admits refer item d := by
  rcases compile_anyOf refer items with ⟨coverage, hc⟩
  rcases exists_compileItems_iff.mpr h with ⟨schemas, hs⟩
  rw [hs] at hc
  rw [admits_iff hc]
  unfold Subschema.accepts
  rw [Checker.accepts_all_iff, List.forall_mem_singleton]
  unfold Checker.anyOf
  rw [Checker.accepts_keyword_iff, List.any_map, List.any_eq_true]
  rw [compileItems_eq_mapM, mapM_eq_ok_iff] at hs
  constructor
  . intro ⟨s, hm, ha⟩
    rcases exists_of_forall₂ hs hm with ⟨item, hi, hc⟩
    exact ⟨item, hi, s, hc, ha⟩
  . intro ⟨item, hi, ha⟩
    rcases exists_of_forall₂ hs.flip hi with ⟨s, hm, hc⟩
    exact ⟨s, hm, (admits_iff hc).mp ha⟩

theorem readable_listOf_iff {members : List (String × Json)} :
    Readable refer (listOf (.object members)) ↔ Readable refer (.object members) := by
  rcases compile_listOf refer members with ⟨coverage, hc⟩
  unfold Readable
  rw [hc, exists_map_eq_ok_iff]

theorem accepts_properties_iff {named : Checker.Named} (h : named.Uniform) :
    (Checker.properties named).accepts d ↔
      ∀ entry ∈ named, ∀ value, d.get? entry.1 = some value → entry.2.accepts value := by
  show (Checker.properties named d .root).isEmpty ↔ _
  unfold Checker.properties
  rw [List.isEmpty_iff, List.flatMap_eq_nil_iff]
  apply forall₂_congr
  intro (name, body) hm
  dsimp only
  cases d.get? name with
  | none => simp
  | some value => simpa [Checker.property] using (h _ hm).eq_nil_iff

theorem accepts_required_iff {names : List String} {members : List (String × Json)} :
    (Checker.required names).accepts (.object members) ↔
      ∀ name ∈ names, ∃ value, (Json.object members).get? name = some value := by
  unfold Checker.accepts Checker.required Checker.missing
  dsimp only
  rw [List.isEmpty_iff, List.map_eq_nil_iff, List.filter_eq_nil_iff]
  apply forall₂_congr
  intro name _
  show _ ↔ ∃ value, members.lookup name = some value
  cases members.lookup name with
  | _ => simp

theorem accepts_type_object_iff {draft : Draft} :
    (Checker.type draft [.object]).accepts d ↔ ∃ members, d = .object members := by
  unfold Checker.type
  rw [Checker.accepts_keyword_iff]
  cases d <;> cases draft <;> simp [Draft.holds, Kind.holds]

theorem accepts_type_array_iff {draft : Draft} :
    (Checker.type draft [.array]).accepts d ↔ ∃ values, d = .list values := by
  unfold Checker.type
  rw [Checker.accepts_keyword_iff]
  cases d <;> cases draft <;> simp [Draft.holds, Kind.holds]

theorem accepts_items_iff {c : Checker} {key : String} {values : List Json} (h : c.Uniform) :
    (Checker.items key 0 c).accepts (.list values) ↔ ∀ value ∈ values, c.accepts value := by
  constructor
  . intro ha value hv
    rcases List.getElem?_of_mem hv with ⟨i, hi⟩
    unfold Checker.accepts Checker.items at ha
    rw [List.isEmpty_iff, List.flatMap_eq_nil_iff] at ha
    exact h.eq_nil_iff.mp (ha (value, i) (List.mk_mem_zipIdx_iff_getElem?.mpr hi))
  . exact accepts_items h

theorem admits_listOf_iff {members : List (String × Json)} (hr : UniformRefer refer)
    (h : Readable refer (.object members)) :
    Admits refer (listOf (.object members)) d ↔
      ∃ values, d = .list values ∧ values ≠ [] ∧ ∀ value ∈ values, Admits refer (.object members) value := by
  rcases compile_listOf refer members with ⟨coverage, hc⟩
  rcases h with ⟨s, hs⟩
  rw [hs] at hc
  simp only [admits_iff hs, admits_iff hc]
  unfold Subschema.accepts
  rw [Checker.accepts_all_iff]
  simp only [List.forall_mem_cons, List.not_mem_nil, false_implies, implies_true, and_true]
  rw [accepts_type_array_iff]
  constructor
  . intro ⟨hi, hn, values, hd⟩
    subst hd
    refine ⟨values, rfl, ?_, (accepts_items_iff (uniform_compile hr hs)).mp hi⟩
    unfold Checker.minItems at hn
    rw [Checker.accepts_keyword_iff] at hn
    exact List.length_pos_iff.mp (of_decide_eq_true hn)
  . intro ⟨values, hd, hn, ha⟩
    subst hd
    refine ⟨(accepts_items_iff (uniform_compile hr hs)).mpr ha, ?_, values, rfl⟩
    apply Checker.accepts_keyword_iff.mpr
    exact decide_eq_true (List.length_pos_iff.mpr hn)

section Resolving

variable {expand : Json → Except SchemaError Json}

theorem inlineItems_eq_mapM : inlineItems expand items = items.mapM (inline expand) := by
  induction items with
  | nil => rfl
  | cons item rest ih =>
    unfold inlineItems
    rw [List.mapM_cons, ih]

theorem inline_oneOf : inline expand (oneOf items) = oneOf <$> items.mapM (inline expand) := by
  show join expand [("oneOf", .list items)] (do
    let inlined ← Json.list <$> inlineItems expand items
    return [("oneOf", inlined)]) = _
  rw [inlineItems_eq_mapM]
  cases items.mapM (inline expand) <;> rfl

theorem inline_anyOf : inline expand (anyOf items) = anyOf <$> items.mapM (inline expand) := by
  show join expand [("anyOf", .list items)] (do
    let inlined ← Json.list <$> inlineItems expand items
    return [("anyOf", inlined)]) = _
  rw [inlineItems_eq_mapM]
  cases items.mapM (inline expand) <;> rfl

theorem inline_listOf {members : List (String × Json)} :
    inline expand (listOf (.object members)) = listOf <$> inline expand (.object members) := by
  show join expand [("items", .object members), ("minItems", 1), ("type", "array")] (do
    let inlined ← inline expand (.object members)
    return [("items", inlined), ("minItems", 1), ("type", "array")]) = _
  cases inline expand (.object members) <;> rfl

end Resolving

end Schema

end Turnstile
