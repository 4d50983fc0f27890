/-!
This module contains tables: finite maps from names that keep the order in which their names were
first inserted. Inserting under a present name changes its value and not its place.
-/

namespace Turnstile

namespace Table

/-- Replaces the value of the first entry with the name, or appends an entry. -/
def insertEntry (name : String) (value : α) : List (String × α) → List (String × α)
  | [] => [(name, value)]
  | (k, v) :: rest => if k = name then (k, value) :: rest else (k, v) :: insertEntry name value rest

theorem mem_keys_insertEntry {entries : List (String × α)} {k : String} :
    k ∈ (insertEntry name value entries).map Prod.fst ↔ k = name ∨ k ∈ entries.map Prod.fst := by
  induction entries with
  | nil => simp [insertEntry]
  | cons entry rest ih =>
    rcases entry with ⟨l, v⟩
    unfold insertEntry
    split
    · simp_all
    · simp only [List.map_cons, List.mem_cons, ih]
      grind

theorem nodup_insertEntry {entries : List (String × α)} (h : (entries.map Prod.fst).Nodup) :
    ((insertEntry name value entries).map Prod.fst).Nodup := by
  induction entries with
  | nil => simp [insertEntry]
  | cons entry rest ih =>
    rcases entry with ⟨l, v⟩
    simp only [List.map_cons, List.nodup_cons] at h
    unfold insertEntry
    split
    · simpa using h
    · simp only [List.map_cons, List.nodup_cons, mem_keys_insertEntry]
      grind

end Table

/-- A map from names to values with the order of first insertion. -/
structure Table (α : Type u) where
  entries : List (String × α)
  nodup : (entries.map Prod.fst).Nodup
  deriving DecidableEq

namespace Table

def empty : Table α :=
  ⟨[], by simp⟩

instance : EmptyCollection (Table α) := ⟨empty⟩

instance : Inhabited (Table α) := ⟨empty⟩

def keys (table : Table α) : List String :=
  table.entries.map Prod.fst

def size (table : Table α) : Nat :=
  table.entries.length

def isEmpty (table : Table α) : Bool :=
  table.entries.isEmpty

def get? (table : Table α) (name : String) : Option α :=
  table.entries.lookup name

def contains (table : Table α) (name : String) : Bool :=
  (table.get? name).isSome

def insert (table : Table α) (name : String) (value : α) : Table α :=
  ⟨insertEntry name value table.entries, nodup_insertEntry table.nodup⟩

def erase (table : Table α) (name : String) : Table α :=
  ⟨table.entries.filter (fun entry => entry.1 != name),
    table.nodup.sublist (List.filter_sublist.map _)⟩

/-- Inserts all entries of a list, one after the other. -/
def insertAll (table : Table α) (entries : List (String × α)) : Table α :=
  entries.foldl (fun table (name, value) => table.insert name value) table

def ofList (entries : List (String × α)) : Table α :=
  empty.insertAll entries

/-- Changes each value and keeps names and order. -/
def mapVal (f : α → β) (table : Table α) : Table β :=
  ⟨table.entries.map (fun (name, value) => (name, f value)), by
    have h := table.nodup
    simpa [List.map_map, Function.comp_def] using h⟩

end Table

end Turnstile
