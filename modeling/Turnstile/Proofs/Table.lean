import Mathlib.Data.List.Nodup
import Turnstile.Table

/-!
This module contains lookups in tables and in lists of entries.
-/

namespace Turnstile

namespace Table

theorem lookup_insertEntry (entries : List (String × α)) :
    (insertEntry name value entries).lookup other =
      if other = name then some value else entries.lookup other := by
  induction entries with
  | nil => grind [insertEntry]
  | cons entry rest ih =>
    rcases entry with ⟨key, old⟩
    unfold insertEntry
    split
    . grind
    . rw [List.lookup_cons, List.lookup_cons, ih]
      grind

theorem get?_insert (table : Table α) (name other : String) (value : α) :
    (table.insert name value).get? other = if other = name then some value else table.get? other :=
  lookup_insertEntry table.entries

theorem isSome_get?_insert {table : Table α} (h : (table.get? other).isSome) :
    ((table.insert name value).get? other).isSome := by
  rw [get?_insert]
  split
  . rfl
  . exact h

theorem get?_insertAll (table : Table α) (entries : List (String × α)) (name : String) :
    (table.insertAll entries).get? name = (entries.reverse.lookup name).or (table.get? name) := by
  induction entries generalizing table with
  | nil => rfl
  | cons entry rest ih =>
    rcases entry with ⟨key, value⟩
    show ((table.insert key value).insertAll rest).get? name = _
    rw [ih, get?_insert, List.reverse_cons, List.lookup_append, Option.or_assoc]
    congr 1
    by_cases hn : name = key
    . simp [hn]
    . simp [hn, List.lookup_cons, beq_false_of_ne hn]

theorem isEmpty_ofList_iff (entries : List (String × α)) : (ofList entries).isEmpty ↔ entries = [] := by
  constructor
  . intro h
    have hn : ∀ name, entries.reverse.lookup name = none := by
      intro name
      have he : (empty.insertAll entries).entries = [] := List.isEmpty_iff.mp h
      have hg : (empty.insertAll entries).get? name = none := by
        unfold get?
        rw [he, List.lookup_nil]
      rw [get?_insertAll, Option.or_eq_none_iff] at hg
      exact hg.1
    cases entries with
    | nil => rfl
    | cons entry rest =>
      have hl := List.lookup_eq_none_iff.mp (hn entry.1) entry (by simp)
      simp at hl
  . intro h
    subst h
    rfl

theorem lookup_eq_none_iff_not_mem {entries : List (String × α)} :
    entries.lookup name = none ↔ name ∉ entries.map Prod.fst := by
  rw [List.lookup_eq_none_iff, List.mem_map]
  constructor
  . rintro h ⟨entry, hentry, rfl⟩
    simpa using h entry hentry
  . intro h entry hentry
    have hne : name ≠ entry.1 := fun heq => h ⟨entry, hentry, heq.symm⟩
    simpa using hne

theorem lookup_eq_some_iff_mem {entries : List (String × α)} (h : (entries.map Prod.fst).Nodup) :
    entries.lookup name = some value ↔ (name, value) ∈ entries := by
  induction entries with
  | nil => simp
  | cons entry rest ih =>
    rw [List.map_cons, List.nodup_cons] at h
    rw [List.lookup_cons, List.mem_cons]
    split
    . next hn =>
      have : (name, value) ∉ rest := by
        intro hm
        apply h.1
        rw [← beq_iff_eq.mp hn]
        exact List.mem_map_of_mem hm
      grind
    . grind

/-- Of the lists behind all names, only the one behind the name is left. -/
theorem flatMap_of_nodup {entries : List (String × List α)} (h : (entries.map Prod.fst).Nodup) (name : String) :
    (entries.flatMap fun (key, items) => if key = name then items else []) = (entries.lookup name).getD [] := by
  induction entries with
  | nil => rfl
  | cons entry rest ih =>
    rcases entry with ⟨key, items⟩
    rw [List.map_cons, List.nodup_cons] at h
    rw [List.flatMap_cons, ih h.2, List.lookup_cons]
    by_cases hk : key = name
    . subst hk
      simp [lookup_eq_none_iff_not_mem.2 h.1]
    . simp [hk, beq_false_of_ne (Ne.symm hk)]

theorem lookup_reverse_of_nodup {entries : List (String × α)} (h : (entries.map Prod.fst).Nodup)
    (name : String) : entries.reverse.lookup name = entries.lookup name := by
  have hr : (entries.reverse.map Prod.fst).Nodup := by
    rw [List.map_reverse]
    exact (List.reverse_perm _).nodup_iff.mpr h
  apply Option.ext
  intro value
  rw [lookup_eq_some_iff_mem hr, lookup_eq_some_iff_mem h, List.mem_reverse]

theorem lookup_reverse (table : Table α) (name : String) :
    table.entries.reverse.lookup name = table.get? name :=
  lookup_reverse_of_nodup table.nodup name

theorem lookup_filter [BEq κ] [LawfulBEq κ] {p : κ → Bool} (hp : p name) (entries : List (κ × α)) :
    (entries.filter fun entry => p entry.1).lookup name = entries.lookup name := by
  induction entries with
  | nil => rfl
  | cons entry rest ih =>
    rw [List.filter_cons]
    split
    . rw [List.lookup_cons, List.lookup_cons, ih]
    . next he =>
      have hn : name ≠ entry.1 := by
        intro hn
        exact he (hn ▸ hp)
      rw [ih, List.lookup_cons, beq_false_of_ne hn]

theorem get?_erase_of_ne {table : Table α} (h : name ≠ erased) :
    (table.erase erased).get? name = table.get? name := by
  apply lookup_filter (p := fun key => key != erased)
  simpa using h

theorem get?_of_perm {table other : Table α} (h : other.entries.Perm table.entries) (name : String) :
    other.get? name = table.get? name := by
  apply Option.ext
  intro value
  unfold get?
  rw [lookup_eq_some_iff_mem other.nodup, lookup_eq_some_iff_mem table.nodup, h.mem_iff]

theorem insertEntry_of_not_mem {entries : List (String × α)} (h : name ∉ entries.map Prod.fst) :
    insertEntry name value entries = entries ++ [(name, value)] := by
  induction entries with
  | nil => rfl
  | cons entry rest ih =>
    unfold insertEntry
    simp_all
    grind

theorem entries_insertAll (table : Table α) (entries : List (String × α))
    (h : ((table.entries ++ entries).map Prod.fst).Nodup) :
    (table.insertAll entries).entries = table.entries ++ entries := by
  induction entries generalizing table with
  | nil => simp [insertAll]
  | cons entry rest ih =>
    have hi : (table.insert entry.1 entry.2).entries = table.entries ++ [entry] := by
      apply insertEntry_of_not_mem
      simp [List.nodup_append] at h
      grind
    show ((table.insert entry.1 entry.2).insertAll rest).entries = _
    rw [ih, hi, List.append_assoc, List.singleton_append]
    rw [hi, List.append_assoc, List.singleton_append]
    exact h

theorem ofList_entries (table : Table α) : ofList table.entries = table := by
  have := entries_insertAll empty table.entries table.nodup
  cases h : ofList table.entries
  cases table
  simp_all [ofList, empty]

theorem mem_of_mem_insertEntry {entries : List (String × α)} (h : entry ∈ insertEntry name value entries) :
    entry = (name, value) ∨ entry ∈ entries := by
  induction entries with
  | nil => simpa [insertEntry] using h
  | cons first rest ih =>
    unfold insertEntry at h
    grind

theorem mem_of_mem_insertAll {table : Table α} {entries : List (String × α)}
    (h : entry ∈ (table.insertAll entries).entries) : entry ∈ entries ∨ entry ∈ table.entries := by
  induction entries generalizing table with
  | nil => exact .inr h
  | cons first rest ih =>
    rcases ih h with he | he
    . exact .inl (.tail _ he)
    . rcases mem_of_mem_insertEntry he with he | he
      . rw [he]
        exact .inl (.head _)
      . exact .inr he

theorem mem_of_mem_ofList {entries : List (String × α)} (h : entry ∈ (ofList entries).entries) :
    entry ∈ entries := by
  rcases mem_of_mem_insertAll h with he | he
  . exact he
  . cases he

end Table

end Turnstile
