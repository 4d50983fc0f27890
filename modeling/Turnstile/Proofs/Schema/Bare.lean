import Turnstile.Proofs.Schema.Mention
import Turnstile.Schema.Validation

/-!
This module contains the schemas without references. They resolve to themselves, and since nothing in
them leads out of them they mean the same wherever they stand.
-/

namespace Turnstile

namespace Schema

def referenceKeywords : List String := ["$ref", "$dynamicRef", "$recursiveRef"]

mutual

/-- Is there no reference, neither at the places where resolving looks for them nor where reading does? -/
def isBare : Json → Bool
  | .object members => membersBare members
  | _ => true

def membersBare : List (String × Json) → Bool
  | [] => true
  | (key, value) :: rest =>
    !referenceKeywords.contains key && valueBare key value && membersBare rest

/-- To resolving, what stands under `dependencies` is one schema; to reading, a schema for each name. -/
def valueBare (key : String) : Json → Bool
  | .object entries =>
    if dataKeywords.contains key then true
    else if mapKeywords.contains key then entriesBare entries
    else membersBare entries && (key ≠ "dependencies" || entriesBare entries)
  | .list items => dataKeywords.contains key || itemsBare items
  | _ => true

def entriesBare : List (String × Json) → Bool
  | [] => true
  | (_, schema) :: rest => isBare schema && entriesBare rest

def itemsBare : List Json → Bool
  | [] => true
  | schema :: rest => isBare schema && itemsBare rest

end

theorem not_mem_of_membersBare (h : membersBare members) :
    ∀ member ∈ members, member.1 ∉ referenceKeywords := by
  induction members with
  | nil => simp
  | cons member rest ih =>
    unfold membersBare at h
    simp only [Bool.and_eq_true, Bool.not_eq_true', List.contains_eq_mem, decide_eq_false_iff_not] at h
    rw [List.forall_mem_cons]
    exact ⟨h.1.1, ih h.2⟩

theorem isBare_of_entriesBare (h : entriesBare entries) :
    ∀ entry ∈ entries, isBare entry.2 := by
  induction entries with
  | nil => simp
  | cons entry rest ih =>
    unfold entriesBare at h
    rw [Bool.and_eq_true] at h
    rw [List.forall_mem_cons]
    exact ⟨h.1, ih h.2⟩

theorem isBare_of_itemsBare (h : itemsBare items) : ∀ schema ∈ items, isBare schema := by
  induction items with
  | nil => simp
  | cons schema rest ih =>
    unfold itemsBare at h
    rw [Bool.and_eq_true] at h
    rw [List.forall_mem_cons]
    exact ⟨h.1, ih h.2⟩

theorem valueBare_of_membersBare (h : membersBare members) :
    ∀ member ∈ members, valueBare member.1 member.2 := by
  induction members with
  | nil => simp
  | cons member rest ih =>
    unfold membersBare at h
    simp only [Bool.and_eq_true] at h
    rw [List.forall_mem_cons]
    exact ⟨h.1.2, ih h.2⟩

theorem isBare_of_holds (hi : Holds key value nested) (hd : key ∉ dataKeywords) (h : valueBare key value) :
    isBare nested := by
  cases hi with
  | named hk hm =>
    apply isBare_of_entriesBare _ _ hm
    simpa [valueBare, hd, hk] using h
  | item hm =>
    apply isBare_of_itemsBare _ _ hm
    simpa [valueBare, hd] using h
  | schema hl hk =>
    cases value with
    | object members =>
      unfold valueBare at h
      rw [if_neg (by simpa using hd), if_neg (by simpa using hk rfl), Bool.and_eq_true] at h
      exact h.1
    | list => cases hl
    | _ => rfl

theorem isBare_of_within (hw : Within schema nested) (h : isBare schema) : isBare nested := by
  induction hw with
  | refl => exact h
  | tail _ hb ih =>
    rcases hb with ⟨members, rfl, key, value, hm, _, hd, hi⟩
    exact isBare_of_holds hi hd (valueBare_of_membersBare ih _ hm)

theorem plain_of_isBare (h : isBare schema) : Plain schema := by
  rintro reference ⟨members, hw, hr⟩
  have hb : membersBare members := isBare_of_within hw h
  exact not_mem_of_membersBare hb _ hr (.head _)

theorem inline_of_isBare {expand : Json → Except SchemaError Json} (h : isBare schema) :
    inline expand schema = .ok schema :=
  inline_of_plain (plain_of_isBare h)

section Reading

variable {refer other : String → Except String Subschema}

theorem mapM_congr {xs : List α} {f g : α → Except ε β} (h : ∀ x ∈ xs, f x = g x) :
    xs.mapM f = xs.mapM g := by
  induction xs with
  | nil => rfl
  | cons x xs ih =>
    rw [List.forall_mem_cons] at h
    rw [List.mapM_cons, List.mapM_cons, h.1, ih h.2]

namespace Members

variable {m : Members}

theorem reference?_of_not_mem (hk : key ∉ referenceKeywords) : m.reference? key value = none := by
  simp only [referenceKeywords, List.mem_cons, List.not_mem_nil, or_false, not_or] at hk
  unfold reference?
  split <;> simp_all

theorem coverage_congr (h : ∀ value ∈ m.values, value.1 ∉ referenceKeywords) :
    { m with refer := other }.coverage = m.coverage := by
  have hr : { m with refer := other }.referred = m.referred := by
    unfold referred
    congr 1
    apply List.map_congr_left
    intro value hv
    dsimp only
    rw [reference?_of_not_mem (h value hv), reference?_of_not_mem (h value hv)]
  have hp : { m with refer := other }.coveredProperties = m.coveredProperties := rfl
  have hi : { m with refer := other }.coveredItems = m.coveredItems := rfl
  unfold coverage coveredInPlace
  rw [hp, hi, hr]
  rfl

theorem keyword_congr (h : ∀ value ∈ m.values, value.1 ∉ referenceKeywords) (hk : key ∉ referenceKeywords) :
    { m with refer := other }.keyword key value = m.keyword key value := by
  unfold keyword
  rw [reference?_of_not_mem hk, reference?_of_not_mem hk, coverage_congr h]
  rfl

theorem subschema_congr (h : ∀ value ∈ m.values, value.1 ∉ referenceKeywords) :
    { m with refer := other }.subschema = m.subschema := by
  have hb : { m with refer := other }.bearing = m.bearing := rfl
  have hm : ∀ value ∈ m.bearing, value.1 ∉ referenceKeywords := by
    intro value hv
    apply h
    grind [bearing]
  unfold subschema
  rw [hb, coverage_congr h]
  rw [mapM_congr fun value hv => keyword_congr h (hm value hv)]

end Members

theorem itemsBare_of_many (hk : manyKeywords.contains key) (h : valueBare key (.list items)) :
    itemsBare items := by
  have hd : ∀ key ∈ manyKeywords, key ∉ dataKeywords := by decide
  unfold valueBare at h
  grind

theorem entriesBare_of_named (hk : namedKeywords.contains key) (h : valueBare key (.object entries)) :
    entriesBare entries := by
  have hd : ∀ key ∈ namedKeywords, key ∉ dataKeywords ∧ key ∈ mapKeywords := by decide
  unfold valueBare at h
  grind

theorem entriesBare_of_dependencies (hk : key = "dependencies") (h : valueBare key (.object entries)) :
    entriesBare entries := by
  subst hk
  unfold valueBare at h
  rw [if_neg (by decide), if_neg (by decide), Bool.and_eq_true] at h
  exact h.2

theorem isBare_of_one (hk : oneKeywords.contains key) (h : valueBare key (.object entries)) :
    isBare (.object entries) := by
  have hd : ∀ key ∈ oneKeywords, key ∉ dataKeywords ∧ key ∉ mapKeywords := by decide
  unfold valueBare at h
  unfold isBare
  grind

mutual

theorem compile_congr (h : isBare schema) : compile refer draft schema = compile other draft schema := by
  match schema with
  | .object members =>
    unfold isBare at h
    unfold compile
    dsimp only
    rw [compileMembers_congr h]
    exact Members.subschema_congr (m := ⟨_, members, _, other⟩) (not_mem_of_membersBare h)
  | .bool true | .bool false => rfl
  | .null | .number _ | .string _ | .list _ => rfl

theorem compileMembers_congr (h : membersBare members) :
    compileMembers refer draft members = compileMembers other draft members := by
  match members with
  | [] => rfl
  | (key, .list items) :: rest =>
    unfold membersBare at h
    rw [Bool.and_eq_true, Bool.and_eq_true] at h
    unfold compileMembers
    rw [compileMembers_congr h.2]
    dsimp only
    split
    . next hk =>
      rw [compileItems_congr (itemsBare_of_many hk h.1.2)]
    . rfl
  | (key, .object entries) :: rest =>
    unfold membersBare at h
    rw [Bool.and_eq_true, Bool.and_eq_true] at h
    unfold compileMembers
    rw [compileMembers_congr h.2]
    dsimp only
    split
    . next hk =>
      rw [compileEntries_congr (entriesBare_of_named hk h.1.2)]
    . split
      . next hk =>
        rw [compileDependencies_congr (entriesBare_of_dependencies hk h.1.2)]
      . split
        . next hk =>
          rw [compile_congr (isBare_of_one hk h.1.2)]
        . rfl
  | (key, .null) :: rest | (key, .bool value) :: rest | (key, .number value) :: rest
  | (key, .string value) :: rest =>
    unfold membersBare at h
    rw [Bool.and_eq_true, Bool.and_eq_true] at h
    unfold compileMembers
    rw [compileMembers_congr h.2]
    dsimp only
    rw [compile_congr (by rfl)]

theorem compileItems_congr (h : itemsBare items) :
    compileItems refer draft items = compileItems other draft items := by
  match items with
  | [] => rfl
  | schema :: rest =>
    unfold itemsBare at h
    rw [Bool.and_eq_true] at h
    unfold compileItems
    rw [compile_congr h.1, compileItems_congr h.2]

theorem compileEntries_congr (h : entriesBare entries) :
    compileEntries refer draft entries = compileEntries other draft entries := by
  match entries with
  | [] => rfl
  | (name, schema) :: rest =>
    unfold entriesBare at h
    rw [Bool.and_eq_true] at h
    unfold compileEntries
    rw [compile_congr h.1, compileEntries_congr h.2]

theorem compileDependencies_congr (h : entriesBare entries) :
    compileDependencies refer draft entries = compileDependencies other draft entries := by
  match entries with
  | [] => rfl
  | (name, value) :: rest =>
    unfold entriesBare at h
    rw [Bool.and_eq_true] at h
    unfold compileDependencies
    rw [compile_congr h.1, compileDependencies_congr h.2]

end

end Reading

end Schema

end Turnstile
