import Mathlib.Data.List.Nodup
import Turnstile.Machine.Check
import Turnstile.Proofs.Schema.Resolution

/-!
This module contains the faults of machines, each with its place, and what the check makes of them: it reports
each fault once, in the order of places, and nothing else. So it passes exactly the consistent machines.
-/

namespace Turnstile

namespace Machine

/-- Where something is wrong, by positions in the lists of a machine. -/
inductive Place where
  | state (n : Nat)
  | transition (n : Nat)
  | source (n : Nat)
  | target (n : Nat)
  /-- A state that a hat of the machine is put on. -/
  | listing (hat n : Nat)
  | definition (n : Nat)
  | schema (n : Nat)

namespace Place

/-- The kinds of faults come one after the other, but what is wrong with the name of a transition and with its ends. -/
def rank : Place → List Nat
  | state n => [0, n]
  | transition n => [1, n, 0]
  | source n => [1, n, 1]
  | target n => [1, n, 2]
  | listing hat n => [2, hat, n]
  | definition n => [3, n]
  | schema n => [4, n]

def Precedes (p q : Place) : Prop :=
  p.rank < q.rank

end Place

/-- The identifier belongs to a state of the machine, or to one that need not be declared. -/
def Declares (m : Machine) (id : StateId) : Prop :=
  id = .start ∨ id = .final ∨ ∃ s ∈ m.states, s.id = id

/-- The machine defines the name, or it is built in and the machine does not define it. -/
def Defines (m : Machine) (name : String) (schema : Json) : Prop :=
  m.schemas.get? name = some schema
    ∨ m.schemas.get? name = none ∧ Definitions.builtin.get? name = some schema

inductive Fault (m : Machine) : Place → DefinitionError → Prop where
  | duplicateState (hs : m.states[n]? = some s) (he : m.states[k]? = some earlier) (hk : k < n)
    (hid : earlier.id = s.id) : Fault m (.state n) (.duplicateState s.id)
  | duplicateTransition (ht : m.transitions[n]? = some t) (he : m.transitions[k]? = some earlier)
    (hk : k < n) (hid : earlier.id = t.id) : Fault m (.transition n) (.duplicateTransition t.id)
  | unknownSource (ht : m.transitions[n]? = some t) (hu : ¬ m.Declares t.id.source) :
    Fault m (.source n) (.unknownState t.id t.id.source)
  | unknownTarget (ht : m.transitions[n]? = some t) (hu : ¬ m.Declares t.id.target) :
    Fault m (.target n) (.unknownState t.id t.id.target)
  | unknownHatTarget (hh : m.hats.entries[k]? = some (hat, targets)) (hs : targets[n]? = some state)
    (hu : ¬ m.Declares state) : Fault m (.listing k n) (.unknownHatTarget hat state)
  | brokenDefinition (hd : m.definitions.entries[n]? = some (name, schema))
    (he : m.definitions.resolve schema = .error error) :
    Fault m (.definition n) (.brokenDefinition name error)
  | brokenSchema (ht : m.transitions[n]? = some t) (hs : t.schema.static? = some schema)
    (he : m.definitions.resolve schema = .error error) : Fault m (.schema n) (.brokenSchema t.id error)

/-- All names are declared, none of them twice, and all schemas resolve that come from no provider. -/
structure Consistent (m : Machine) : Prop where
  states : (m.states.map (·.id)).Nodup
  transitions : (m.transitions.map (·.id)).Nodup
  ends : ∀ t ∈ m.transitions, m.Declares t.id.source ∧ m.Declares t.id.target
  hats : ∀ hat targets, m.hats.get? hat = some targets → ∀ id ∈ targets, m.Declares id
  definitions : ∀ name schema, m.Defines name schema → ∃ v, m.definitions.resolve schema = .ok v
  schemas : ∀ t ∈ m.transitions, ∀ schema, t.schema.static? = some schema →
    ∃ v, m.definitions.resolve schema = .ok v

variable {m : Machine} {place : Place} {error : DefinitionError}

theorem knows_iff (m : Machine) (id : StateId) : m.knows id = true ↔ m.Declares id := by
  simp [knows, Declares, StateId.isSentinel, StateId.isStart, StateId.isFinal, or_assoc]

theorem get?_definitions_iff (m : Machine) (name : String) (schema : Json) :
    m.definitions.get? name = some schema ↔ m.Defines name schema := by
  unfold definitions Defines
  rw [Definitions.get?_override]
  cases m.schemas.get? name with
  | none => simp
  | some own => simp

theorem mem_definitions_iff (m : Machine) (name : String) (schema : Json) :
    (name, schema) ∈ m.definitions.entries ↔ m.Defines name schema := by
  rw [← get?_definitions_iff]
  exact (Table.lookup_eq_some_iff_mem m.definitions.nodup).symm

/-! ## The faults in a list -/

/-- An error with its place, if there is one. -/
def noted (c : Prop) [Decidable c] (place : Place) (error : DefinitionError) : List (Place × DefinitionError) :=
  if c then [(place, error)] else []

def stateFaults (m : Machine) : List (Place × DefinitionError) :=
  m.states.zipIdx.flatMap fun (s, n) =>
    noted (s.id ∈ (m.states.map (·.id)).take n) (.state n) (.duplicateState s.id)

def edgeFaults (m : Machine) : List (Place × DefinitionError) :=
  m.transitions.zipIdx.flatMap fun (t, n) =>
    noted (t.id ∈ (m.transitions.map (·.id)).take n) (.transition n) (.duplicateTransition t.id) ++
      noted (!m.knows t.id.source) (.source n) (.unknownState t.id t.id.source) ++
      noted (!m.knows t.id.target) (.target n) (.unknownState t.id t.id.target)

def hatFaults (m : Machine) : List (Place × DefinitionError) :=
  m.hats.entries.zipIdx.flatMap fun ((hat, targets), k) =>
    targets.zipIdx.flatMap fun (state, n) =>
      noted (!m.knows state) (.listing k n) (.unknownHatTarget hat state)

def definitionFaults (m : Machine) : List (Place × DefinitionError) :=
  m.definitions.entries.zipIdx.flatMap fun ((name, schema), n) =>
    match m.definitions.resolve schema with
    | .ok _ => []
    | .error e => [(.definition n, .brokenDefinition name e)]

def schemaFaults (m : Machine) : List (Place × DefinitionError) :=
  m.transitions.zipIdx.flatMap fun (t, n) =>
    match t.schema.static?.map m.definitions.resolve with
    | some (.error e) => [(.schema n, .brokenSchema t.id e)]
    | _ => []

def faults (m : Machine) : List (Place × DefinitionError) :=
  m.stateFaults ++ m.edgeFaults ++ m.hatFaults ++ m.definitionFaults ++ m.schemaFaults

section

variable (c : Prop) [Decidable c] (place : Place) (error : DefinitionError)

@[simp]
theorem mem_noted_iff (a : Place × DefinitionError) : a ∈ noted c place error ↔ c ∧ a = (place, error) := by
  simp [noted]

@[simp]
theorem map_noted : (noted c place error).map Prod.snd = if c then [error] else [] := by
  simp [noted, apply_ite]

theorem noted_sublist : (noted c place error).Sublist [(place, error)] := by
  unfold noted
  split
  . exact .refl _
  . exact List.nil_sublist _

end

/-! ## What is reported -/

/-- Without the list of what was seen: an element is held against those in front of it. -/
theorem repeated_eq {α ε : Type} [DecidableEq α] (error : α → ε) (seen as : List α) :
    repeated error seen as =
      as.zipIdx.flatMap fun (a, n) => if a ∈ seen ∨ a ∈ as.take n then [error a] else [] := by
  induction as generalizing seen with
  | nil => rfl
  | cons a rest ih =>
    rw [repeated, ih, List.zipIdx_cons, List.zipIdx_succ, List.flatMap_cons, List.flatMap_map]
    congr 1
    . simp
    . apply List.flatMap_congr
      rintro ⟨b, n⟩ _
      simp [or_assoc, or_left_comm]

theorem edgeErrors_eq (m : Machine) (seen : List Edge) (ts : List Transition) :
    m.edgeErrors seen ts =
      ts.zipIdx.flatMap fun (t, n) =>
        (if t.id ∈ seen ∨ t.id ∈ (ts.map (·.id)).take n then [.duplicateTransition t.id] else []) ++
          (if !m.knows t.id.source then [.unknownState t.id t.id.source] else []) ++
          (if !m.knows t.id.target then [.unknownState t.id t.id.target] else []) := by
  induction ts generalizing seen with
  | nil => rfl
  | cons t rest ih =>
    rw [edgeErrors, ih, List.zipIdx_cons, List.zipIdx_succ, List.flatMap_cons, List.flatMap_map]
    congr 1
    . cases hs : m.knows t.id.source with
      | _ => cases ht : m.knows t.id.target with
        | _ => simp [hs, ht]
    . apply List.flatMap_congr
      rintro ⟨u, n⟩ _
      simp [or_assoc, or_left_comm]

theorem flatMap_zipIdx {α β : Type} (as : List α) (f : α → List β) :
    (as.zipIdx.flatMap fun (a, _) => f a) = as.flatMap f := by
  have h := congrArg (List.flatMap f) (List.zipIdx_map_fst 0 as)
  rw [List.flatMap_map] at h
  exact h

theorem map_filter_eq_flatMap {α β : Type} (p : α → Bool) (f : α → β) (as : List α) :
    (as.filter p).map f = as.flatMap fun a => if p a then [f a] else [] := by
  induction as with
  | nil => rfl
  | cons a rest ih => cases h : p a <;> simp [h, ih]

theorem filterMap_eq_flatMap {α β : Type} (f : α → Option β) (as : List α) :
    as.filterMap f = as.flatMap fun a => (f a).toList := by
  induction as with
  | nil => rfl
  | cons a rest ih => cases h : f a <;> simp [h, ih]

theorem stateErrors_eq (m : Machine) :
    repeated .duplicateState [] (m.states.map (·.id)) = m.stateFaults.map Prod.snd := by
  unfold stateFaults
  rw [repeated_eq, List.zipIdx_map, List.flatMap_map, List.map_flatMap]
  apply List.flatMap_congr
  rintro ⟨s, n⟩ _
  simp

theorem transitionErrors_eq (m : Machine) : m.edgeErrors [] m.transitions = m.edgeFaults.map Prod.snd := by
  unfold edgeFaults
  rw [edgeErrors_eq, List.map_flatMap]
  apply List.flatMap_congr
  rintro ⟨t, n⟩ _
  simp

theorem hatErrors_eq (m : Machine) : m.hatErrors = m.hatFaults.map Prod.snd := by
  unfold hatErrors hatFaults
  rw [← flatMap_zipIdx, List.map_flatMap]
  apply List.flatMap_congr
  rintro ⟨⟨hat, targets⟩, k⟩ _
  dsimp only
  rw [map_filter_eq_flatMap, ← flatMap_zipIdx, List.map_flatMap]
  simp

theorem definitionErrors_eq (m : Machine) :
    (m.definitions.check.map fun x => .brokenDefinition x.1 x.2) = m.definitionFaults.map Prod.snd := by
  unfold Definitions.check definitionFaults
  rw [List.map_filterMap, filterMap_eq_flatMap, ← flatMap_zipIdx, List.map_flatMap]
  apply List.flatMap_congr
  rintro ⟨⟨name, schema⟩, n⟩ _
  cases h : m.definitions.resolve schema with
  | _ => simp [h]

theorem schemaErrors_eq (m : Machine) : m.schemaErrors = m.schemaFaults.map Prod.snd := by
  unfold schemaErrors schemaFaults
  rw [filterMap_eq_flatMap, ← flatMap_zipIdx, List.map_flatMap]
  apply List.flatMap_congr
  rintro ⟨t, n⟩ _
  dsimp only
  rcases t.schema.static?.map m.definitions.resolve with _ | _ | _
  . rfl
  . rfl
  . rfl

theorem problems_eq (m : Machine) : m.problems = m.faults.map Prod.snd := by
  unfold faults
  simp only [List.map_append, ← stateErrors_eq, ← transitionErrors_eq, ← hatErrors_eq, ← definitionErrors_eq,
    ← schemaErrors_eq]
  rfl

/-! ## The faults that are listed -/

theorem mem_take_map_iff {α β : Type} {as : List α} {f : α → β} {b : β} {n : Nat} :
    b ∈ (as.map f).take n ↔ ∃ k a, as[k]? = some a ∧ k < n ∧ f a = b := by
  rw [List.mem_take_iff_getElem]
  constructor
  . rintro ⟨k, hk, rfl⟩
    rw [List.length_map] at hk
    have hlt : k < as.length := by omega
    exact ⟨k, as[k], List.getElem?_eq_getElem hlt, by omega, by simp⟩
  . rintro ⟨k, a, ha, hk, rfl⟩
    rcases List.getElem?_eq_some_iff.1 ha with ⟨hlt, rfl⟩
    refine ⟨k, ?_, by simp⟩
    rw [List.length_map]
    omega

theorem fault_of_mem (h : (place, error) ∈ m.faults) : m.Fault place error := by
  unfold faults at h
  simp only [List.mem_append] at h
  rcases h with (((h | h) | h) | h) | h
  . rcases List.mem_flatMap.1 h with ⟨⟨s, n⟩, hs, h⟩
    rw [List.mem_zipIdx_iff_getElem?] at hs
    rcases (mem_noted_iff _ _ _ _).1 h with ⟨hd, h⟩
    rcases mem_take_map_iff.1 hd with ⟨k, earlier, he, hk, hid⟩
    cases h
    exact .duplicateState hs he hk hid
  . rcases List.mem_flatMap.1 h with ⟨⟨t, n⟩, ht, h⟩
    rw [List.mem_zipIdx_iff_getElem?] at ht
    simp only [List.mem_append, mem_noted_iff, Bool.not_eq_eq_eq_not, Bool.not_true, ← Bool.not_eq_true,
      knows_iff] at h
    rcases h with (⟨hd, h⟩ | ⟨hu, h⟩) | ⟨hu, h⟩
    . rcases mem_take_map_iff.1 hd with ⟨k, earlier, he, hk, hid⟩
      cases h
      exact .duplicateTransition ht he hk hid
    . cases h
      exact .unknownSource ht hu
    . cases h
      exact .unknownTarget ht hu
  . rcases List.mem_flatMap.1 h with ⟨⟨⟨hat, targets⟩, k⟩, hh, h⟩
    rcases List.mem_flatMap.1 h with ⟨⟨state, n⟩, hs, h⟩
    rw [List.mem_zipIdx_iff_getElem?] at hh hs
    simp only [mem_noted_iff, Bool.not_eq_eq_eq_not, Bool.not_true, ← Bool.not_eq_true, knows_iff] at h
    rcases h with ⟨hu, h⟩
    cases h
    exact .unknownHatTarget hh hs hu
  . rcases List.mem_flatMap.1 h with ⟨⟨⟨name, schema⟩, n⟩, hd, h⟩
    rw [List.mem_zipIdx_iff_getElem?] at hd
    dsimp only at h
    split at h
    . cases h
    . next he =>
      cases List.mem_singleton.1 h
      exact .brokenDefinition hd he
  . rcases List.mem_flatMap.1 h with ⟨⟨t, n⟩, ht, h⟩
    rw [List.mem_zipIdx_iff_getElem?] at ht
    dsimp only at h
    split at h
    . next he =>
      cases List.mem_singleton.1 h
      rcases Option.map_eq_some_iff.1 he with ⟨schema, hs, he⟩
      exact .brokenSchema ht hs he
    . cases h

theorem mem_numbered {α β : Type} {as : List α} {f : α × Nat → List β} {n : Nat} {a : α} {b : β}
    (ha : as[n]? = some a) (hb : b ∈ f (a, n)) : b ∈ as.zipIdx.flatMap f :=
  List.mem_flatMap.2 ⟨(a, n), List.mem_zipIdx_iff_getElem?.2 ha, hb⟩

theorem mem_of_fault (h : m.Fault place error) : (place, error) ∈ m.faults := by
  unfold faults
  simp only [List.mem_append]
  cases h with
  | duplicateState hs he hk hid =>
    refine .inl (.inl (.inl (.inl (mem_numbered hs ?_))))
    simp [mem_take_map_iff.2 ⟨_, _, he, hk, hid⟩]
  | duplicateTransition ht he hk hid =>
    refine .inl (.inl (.inl (.inr (mem_numbered ht ?_))))
    simp [mem_take_map_iff.2 ⟨_, _, he, hk, hid⟩]
  | unknownSource ht hu | unknownTarget ht hu =>
    rw [← knows_iff] at hu
    refine .inl (.inl (.inl (.inr (mem_numbered ht ?_))))
    simp [hu]
  | unknownHatTarget hh hs hu =>
    rw [← knows_iff] at hu
    refine .inl (.inl (.inr (mem_numbered hh (mem_numbered hs ?_))))
    simp [hu]
  | brokenDefinition hd he =>
    refine .inl (.inr (mem_numbered hd ?_))
    simp [he]
  | brokenSchema ht hs he =>
    refine .inr (mem_numbered ht ?_)
    simp [hs, he]

theorem mem_faults_iff : (place, error) ∈ m.faults ↔ m.Fault place error :=
  ⟨fault_of_mem, mem_of_fault⟩

/-! ## The order of faults -/

/-- The list is in the order of places, all of which are of kinds from one number to below another. -/
structure Spans (first next : Nat) (faults : List (Place × DefinitionError)) : Prop where
  ordered : faults.Pairwise fun a b => a.1.Precedes b.1
  kinds : ∀ a ∈ faults, ∃ kind rest, a.1.rank = kind :: rest ∧ first ≤ kind ∧ kind < next

theorem Spans.append {xs ys : List (Place × DefinitionError)} {first middle next : Nat} (h : Spans first middle xs)
    (h' : Spans middle next ys) (hf : first ≤ middle) (hn : middle ≤ next) : Spans first next (xs ++ ys) := by
  constructor
  . rw [List.pairwise_append]
    refine ⟨h.ordered, h'.ordered, ?_⟩
    intro a ha b hb
    rcases h.kinds a ha with ⟨kind, rest, hrank, _, hlt⟩
    rcases h'.kinds b hb with ⟨kind', rest', hrank', hle, _⟩
    unfold Place.Precedes
    rw [hrank, hrank']
    exact .rel (by omega)
  . intro a ha
    rcases List.mem_append.1 ha with ha | ha
    . rcases h.kinds a ha with ⟨kind, rest, hrank, hle, hlt⟩
      exact ⟨kind, rest, hrank, hle, by omega⟩
    . rcases h'.kinds a ha with ⟨kind, rest, hrank, hle, hlt⟩
      exact ⟨kind, rest, hrank, by omega, hlt⟩

theorem ordered_noted (c : Prop) [Decidable c] (place : Place) (error : DefinitionError) :
    (noted c place error).Pairwise fun a b => a.1.Precedes b.1 :=
  List.Pairwise.sublist (noted_sublist c place error) (List.pairwise_singleton _ _)

/-- Faults at the positions of a list are in order if they are so at each position. -/
theorem ordered_numbered {α : Type} {as : List α} {f : α × Nat → List (Place × DefinitionError)}
    (start : List Nat) (hin : ∀ x, (f x).Pairwise fun a b => a.1.Precedes b.1)
    (hrank : ∀ x, ∀ a ∈ f x, ∃ rest, a.1.rank = start ++ x.2 :: rest) :
    (as.zipIdx.flatMap f).Pairwise fun a b => a.1.Precedes b.1 := by
  have hnumbers : as.zipIdx.Pairwise fun x y => x.2 < y.2 := by
    rw [← List.pairwise_map, List.zipIdx_map_snd]
    exact List.pairwise_lt_range' 1 Nat.one_pos
  rw [List.pairwise_flatMap]
  refine ⟨fun x _ => hin x, hnumbers.imp ?_⟩
  intro x y hlt a ha b hb
  rcases hrank x a ha with ⟨rest, ha⟩
  rcases hrank y b hb with ⟨rest', hb⟩
  unfold Place.Precedes
  rw [ha, hb]
  exact List.append_left_lt (.rel hlt)

theorem spans_numbered {α : Type} {as : List α} {f : α × Nat → List (Place × DefinitionError)} {kind : Nat}
    (hin : ∀ x, (f x).Pairwise fun a b => a.1.Precedes b.1)
    (hrank : ∀ x, ∀ a ∈ f x, ∃ rest, a.1.rank = kind :: x.2 :: rest) :
    Spans kind (kind + 1) (as.zipIdx.flatMap f) := by
  refine ⟨ordered_numbered [kind] hin hrank, ?_⟩
  intro a ha
  rcases List.mem_flatMap.1 ha with ⟨x, _, ha⟩
  rcases hrank x a ha with ⟨rest, hrank⟩
  exact ⟨kind, _, hrank, Nat.le_refl _, Nat.lt_succ_self _⟩

theorem spans_stateFaults (m : Machine) : Spans 0 1 m.stateFaults := by
  apply spans_numbered
  . rintro ⟨s, n⟩
    apply ordered_noted
  . rintro ⟨s, n⟩ a ha
    rw [((mem_noted_iff _ _ _ _).1 ha).2]
    exact ⟨_, rfl⟩

theorem spans_edgeFaults (m : Machine) : Spans 1 2 m.edgeFaults := by
  apply spans_numbered
  . rintro ⟨t, n⟩
    have hall : [(Place.transition n, DefinitionError.duplicateTransition t.id),
        (.source n, .unknownState t.id t.id.source),
        (.target n, .unknownState t.id t.id.target)].Pairwise fun a b => a.1.Precedes b.1 := by
      simp [Place.Precedes, Place.rank, List.cons_lt_cons_iff]
    -- Whichever of the three there are, they are in this order.
    refine List.Pairwise.sublist ?_ hall
    exact ((noted_sublist _ _ _).append (noted_sublist _ _ _)).append (noted_sublist _ _ _)
  . rintro ⟨t, n⟩ a ha
    simp only [List.mem_append, mem_noted_iff] at ha
    rcases ha with (⟨_, rfl⟩ | ⟨_, rfl⟩) | ⟨_, rfl⟩
    . exact ⟨_, rfl⟩
    . exact ⟨_, rfl⟩
    . exact ⟨_, rfl⟩

theorem spans_hatFaults (m : Machine) : Spans 2 3 m.hatFaults := by
  apply spans_numbered
  . rintro ⟨⟨hat, targets⟩, k⟩
    apply ordered_numbered [2, k]
    . rintro ⟨state, n⟩
      apply ordered_noted
    . rintro ⟨state, n⟩ a ha
      rw [((mem_noted_iff _ _ _ _).1 ha).2]
      exact ⟨_, rfl⟩
  . rintro ⟨⟨hat, targets⟩, k⟩ a ha
    rcases List.mem_flatMap.1 ha with ⟨⟨state, n⟩, _, ha⟩
    rw [((mem_noted_iff _ _ _ _).1 ha).2]
    exact ⟨_, rfl⟩

theorem spans_definitionFaults (m : Machine) : Spans 3 4 m.definitionFaults := by
  apply spans_numbered
  . rintro ⟨⟨name, schema⟩, n⟩
    dsimp only
    split
    . exact .nil
    . exact List.pairwise_singleton _ _
  . rintro ⟨⟨name, schema⟩, n⟩ a ha
    dsimp only at ha
    split at ha
    . cases ha
    . rw [List.mem_singleton.1 ha]
      exact ⟨_, rfl⟩

theorem spans_schemaFaults (m : Machine) : Spans 4 5 m.schemaFaults := by
  apply spans_numbered
  . rintro ⟨t, n⟩
    dsimp only
    split
    . exact List.pairwise_singleton _ _
    . exact .nil
  . rintro ⟨t, n⟩ a ha
    dsimp only at ha
    split at ha
    . rw [List.mem_singleton.1 ha]
      exact ⟨_, rfl⟩
    . cases ha

theorem ordered_faults (m : Machine) : m.faults.Pairwise fun a b => a.1.Precedes b.1 := by
  have hedges := m.spans_stateFaults.append m.spans_edgeFaults (by decide) (by decide)
  have hhats := hedges.append m.spans_hatFaults (by decide) (by decide)
  have hdefinitions := hhats.append m.spans_definitionFaults (by decide) (by decide)
  exact (hdefinitions.append m.spans_schemaFaults (by decide) (by decide)).ordered

/-! ## Machines without faults -/

theorem check_eq (m : Machine) :
    m.check = if m.faults = [] then .ok () else .error (m.faults.map Prod.snd) := by
  unfold check
  rw [problems_eq]
  cases m.faults with
  | nil => rfl
  | cons fault rest => rfl

theorem nodup_map_iff {α β : Type} {as : List α} {f : α → β} :
    (as.map f).Nodup ↔
      ∀ (n k : Nat) (a b : α), as[n]? = some a → as[k]? = some b → k < n → f b ≠ f a := by
  rw [List.nodup_iff_getElem?_ne_getElem?]
  constructor
  . intro h n k a b ha hb hk heq
    have hn := (List.getElem?_eq_some_iff.1 ha).1
    apply h k n hk (by simpa using hn)
    rw [List.getElem?_map, List.getElem?_map, ha, hb, Option.map_some, Option.map_some, heq]
  . intro h k n hk hn heq
    rw [List.length_map] at hn
    rw [List.getElem?_map, List.getElem?_map, List.getElem?_eq_getElem hn,
      List.getElem?_eq_getElem (Nat.lt_trans hk hn)] at heq
    injection heq with heq
    exact h n k _ _ (List.getElem?_eq_getElem hn) (List.getElem?_eq_getElem _) hk heq

theorem Consistent.not_fault (h : m.Consistent) : ¬ m.Fault place error := by
  intro hf
  cases hf with
  | duplicateState hs he hk hid => exact nodup_map_iff.1 h.states _ _ _ _ hs he hk hid
  | duplicateTransition ht he hk hid => exact nodup_map_iff.1 h.transitions _ _ _ _ ht he hk hid
  | unknownSource ht hu => exact hu (h.ends _ (List.mem_of_getElem? ht)).1
  | unknownTarget ht hu => exact hu (h.ends _ (List.mem_of_getElem? ht)).2
  | unknownHatTarget hh hs hu =>
    have hget := (Table.lookup_eq_some_iff_mem m.hats.nodup).2 (List.mem_of_getElem? hh)
    exact hu (h.hats _ _ hget _ (List.mem_of_getElem? hs))
  | brokenDefinition hd he =>
    rcases h.definitions _ _ ((mem_definitions_iff _ _ _).1 (List.mem_of_getElem? hd)) with ⟨v, hv⟩
    rw [hv] at he
    cases he
  | brokenSchema ht hs he =>
    rcases h.schemas _ (List.mem_of_getElem? ht) _ hs with ⟨v, hv⟩
    rw [hv] at he
    cases he

theorem consistent_of_not_fault (h : ∀ place error, ¬ m.Fault place error) : m.Consistent where
  states := nodup_map_iff.2 fun _ _ _ _ hs he hk hid => h _ _ (.duplicateState hs he hk hid)
  transitions := nodup_map_iff.2 fun _ _ _ _ ht he hk hid => h _ _ (.duplicateTransition ht he hk hid)
  ends t ht := by
    rcases List.mem_iff_getElem?.1 ht with ⟨n, ht⟩
    exact ⟨Classical.byContradiction fun hu => h _ _ (.unknownSource ht hu),
      Classical.byContradiction fun hu => h _ _ (.unknownTarget ht hu)⟩
  hats hat targets hget id hid := by
    have hmem := (Table.lookup_eq_some_iff_mem m.hats.nodup).1 hget
    rcases List.mem_iff_getElem?.1 hmem with ⟨k, hh⟩
    rcases List.mem_iff_getElem?.1 hid with ⟨n, hs⟩
    exact Classical.byContradiction fun hu => h _ _ (.unknownHatTarget hh hs hu)
  definitions name schema hd := by
    rcases List.mem_iff_getElem?.1 ((mem_definitions_iff _ _ _).2 hd) with ⟨n, hd⟩
    cases he : m.definitions.resolve schema with
    | ok v => exact ⟨v, rfl⟩
    | error e => exact absurd (.brokenDefinition hd he) (h _ _)
  schemas t ht schema hs := by
    rcases List.mem_iff_getElem?.1 ht with ⟨n, ht⟩
    cases he : m.definitions.resolve schema with
    | ok v => exact ⟨v, rfl⟩
    | error e => exact absurd (.brokenSchema ht hs he) (h _ _)

theorem check_eq_ok_iff : m.check = .ok () ↔ m.Consistent := by
  rw [check_eq]
  constructor
  . intro h
    apply consistent_of_not_fault
    intro place error hf
    rw [if_neg (List.ne_nil_of_mem (mem_faults_iff.2 hf))] at h
    cases h
  . intro h
    have hnone : m.faults = [] := by
      rw [List.eq_nil_iff_forall_not_mem]
      rintro ⟨place, error⟩ hmem
      exact h.not_fault (mem_faults_iff.1 hmem)
    rw [if_pos hnone]

/--
The check passes exactly the consistent machines: no name is declared twice, all names that are used are declared,
and all schemas resolve, in the definitions of the machine on top of the built-in ones. To all other machines it
answers with one error for each fault, in the order of the places of the faults, and with nothing besides.
-/
theorem check_reports_faults (m : Machine) :
    (m.check = .ok () ↔ m.Consistent)
    ∧ (∀ name schema, (name, schema) ∈ m.definitions.entries ↔ m.Defines name schema)
    ∧ ∃ faults : List (Place × DefinitionError),
        (∀ place error, (place, error) ∈ faults ↔ m.Fault place error)
        ∧ faults.Pairwise (fun a b => a.1.Precedes b.1)
        ∧ m.check = if faults = [] then .ok () else .error (faults.map Prod.snd) :=
  ⟨check_eq_ok_iff, m.mem_definitions_iff, m.faults, fun _ _ => mem_faults_iff, m.ordered_faults, m.check_eq⟩

end Machine

namespace Sample

/-- A machine with faults of most kinds. The definition that it replaces is one that a built-in one refers to. -/
def flawed : Machine :=
  { Machine.new "gate" "5" with
    schemas := .ofList [("tool-call", .object [("$ref", .string "#/$defs/gone")])]
    hats := .ofList [("echo", [⟨"lost"⟩])] }
    |>.addState (.new ⟨"work"⟩)
    |>.addState (.new ⟨"work"⟩)
    |>.addTransition (.new ⟨"away"⟩ ⟨"away"⟩)
    |>.addTransition (.new ⟨"work"⟩ .final)
    |>.addTransition (.new ⟨"away"⟩ ⟨"away"⟩)

example : flawed.check = .error [
    .duplicateState ⟨"work"⟩,
    .unknownState ⟨⟨"away"⟩, ⟨"away"⟩⟩ ⟨"away"⟩,
    .unknownState ⟨⟨"away"⟩, ⟨"away"⟩⟩ ⟨"away"⟩,
    .duplicateTransition ⟨⟨"away"⟩, ⟨"away"⟩⟩,
    .unknownState ⟨⟨"away"⟩, ⟨"away"⟩⟩ ⟨"away"⟩,
    .unknownState ⟨⟨"away"⟩, ⟨"away"⟩⟩ ⟨"away"⟩,
    .unknownHatTarget "echo" ⟨"lost"⟩,
    .brokenDefinition "tool-call" (.unresolvedRef "#/$defs/gone"),
    .brokenDefinition "tool-calls" (.unresolvedRef "#/$defs/gone")] := by
  rfl

end Sample

end Turnstile
