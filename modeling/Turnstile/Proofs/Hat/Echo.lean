import Turnstile.Proofs.Hat.Addition
import Turnstile.Proofs.Machine.Fault

/-!
This module contains what the hat `echo` makes of a machine that is in order. The machine stays in order unless two
of its states get the same name, which happens if a state wears the hat twice, or if there is a state already that is
called like the one for a wearer.
-/

namespace Turnstile

theorem Definitions.resolve_bool (defs : Definitions) (b : Bool) : defs.resolve (.bool b) = .ok (.bool b) :=
  rfl

namespace Machine

/-- The states that wear a hat, each as often as it does: by declarations of their own, and then of the machine. -/
def wearers (m : Machine) (hat : String) : List StateId :=
  (m.states.flatMap fun s => (s.hats.filter (·.name = hat)).map fun _ => s.id) ++ (m.hats.get? hat).getD []

variable {m extended : Machine} {hat : String} {id : StateId}

theorem wearers_eq (m : Machine) (hat : String) :
    (m.declarations.filter (·.hat = hat)).map (·.state) = m.wearers hat := by
  unfold declarations wearers
  rw [List.filter_append, List.map_append]
  congr 1
  . rw [List.filter_flatMap, List.map_flatMap]
    apply List.flatMap_congr
    intro s _
    rw [List.filter_map, List.map_map]
    rfl
  . unfold Table.get?
    rw [← Table.flatMap_of_nodup m.hats.nodup, List.filter_flatMap, List.map_flatMap]
    apply List.flatMap_congr
    rintro ⟨key, targets⟩ _
    by_cases hk : key = hat
    . simp [hk, List.filter_map, Function.comp_def]
    . simp [hk, List.filter_map, Function.comp_def]

theorem Consistent.declares_of_mem_wearers (h : m.Consistent) (hid : id ∈ m.wearers hat) : m.Declares id := by
  unfold wearers at hid
  rcases List.mem_append.1 hid with hid | hid
  . rcases List.mem_flatMap.1 hid with ⟨s, hs, hid⟩
    rcases List.mem_map.1 hid with ⟨_, _, rfl⟩
    exact .inr (.inr ⟨s, hs, rfl⟩)
  . cases hget : m.hats.get? hat with
    | none =>
      rw [hget] at hid
      cases hid
    | some targets =>
      rw [hget] at hid
      exact h.hats hat targets hget id hid

/-- The machine with more states and transitions, in which the states may have changed but for their names. -/
structure Extends (m extended : Machine) (ids : List StateId) (ts : List Transition) : Prop where
  states : extended.states.map (·.id) = m.states.map (·.id) ++ ids
  transitions : extended.transitions = m.transitions ++ ts
  schemas : extended.schemas = m.schemas
  hats : extended.hats = m.hats

variable {ids : List StateId} {ts : List Transition}

theorem declares_iff (m : Machine) (id : StateId) :
    m.Declares id ↔ id = .start ∨ id = .final ∨ id ∈ m.states.map (·.id) := by
  unfold Declares
  rw [List.mem_map]

theorem Extends.declares_iff (h : Extends m extended ids ts) :
    extended.Declares id ↔ m.Declares id ∨ id ∈ ids := by
  rw [Machine.declares_iff, Machine.declares_iff, h.states, List.mem_append]
  simp only [or_assoc]

theorem Extends.consistent (h : Extends m extended ids ts) (hm : m.Consistent)
    (hstates : (extended.states.map (·.id)).Nodup) (htransitions : (extended.transitions.map (·.id)).Nodup)
    (hends : ∀ t ∈ ts, extended.Declares t.id.source ∧ extended.Declares t.id.target)
    (hschemas : ∀ t ∈ ts, ∀ schema, t.schema.static? = some schema →
      ∃ v, extended.definitions.resolve schema = .ok v) : extended.Consistent := by
  have hdefinitions : extended.definitions = m.definitions := by
    unfold definitions
    rw [h.schemas]
  have hdeclares : ∀ id, m.Declares id → extended.Declares id := fun id hid => h.declares_iff.2 (.inl hid)
  refine ⟨hstates, htransitions, ?_, ?_, ?_, ?_⟩
  . intro t ht
    rw [h.transitions] at ht
    rcases List.mem_append.1 ht with ht | ht
    . exact ⟨hdeclares _ (hm.ends t ht).1, hdeclares _ (hm.ends t ht).2⟩
    . exact hends t ht
  . intro hat targets hget id hid
    rw [h.hats] at hget
    exact hdeclares _ (hm.hats hat targets hget id hid)
  . intro name schema hd
    unfold Defines at hd
    rw [h.schemas] at hd
    rw [hdefinitions]
    exact hm.definitions name schema hd
  . intro t ht schema hs
    rw [h.transitions] at ht
    rcases List.mem_append.1 ht with ht | ht
    . rw [hdefinitions]
      exact hm.schemas t ht schema hs
    . exact hschemas t ht schema hs

end Machine

namespace Echo

variable {v w : StateId} {ws : List StateId}

theorem length_stateOf (w : StateId) : (stateOf w).name.length = w.name.length + 5 := by
  simp [stateOf, StateId.suffixed]
  rfl

theorem stateOf_inj : stateOf v = stateOf w ↔ v = w := by
  constructor
  . intro h
    cases v
    cases w
    simpa [stateOf, StateId.suffixed] using h
  . exact congrArg stateOf

theorem stateOf_ne (w : StateId) : stateOf w ≠ w := by
  intro h
  have := length_stateOf w
  rw [h] at this
  omega

/-- No state is added that need not be declared. -/
theorem stateOf_ne_sentinel (w : StateId) : stateOf w ≠ .start ∧ stateOf w ≠ .final := by
  have hlength := length_stateOf w
  constructor
  . intro h
    have hempty : w.name = "" := by
      rw [h] at hlength
      have : StateId.start.name.length = 5 := rfl
      exact String.length_eq_zero_iff.1 (by omega)
    cases w
    cases hempty
    exact absurd h (by decide)
  . intro h
    rw [h] at hlength
    have : StateId.final.name.length = 3 := rfl
    omega

/-- The names of the transitions to the state that is added, and back from it. -/
def edges (w : StateId) : List Edge :=
  [⟨w, stateOf w⟩, ⟨stateOf w, w⟩]

@[simp]
theorem mem_edges_iff {edge : Edge} : edge ∈ edges w ↔ edge = ⟨w, stateOf w⟩ ∨ edge = ⟨stateOf w, w⟩ := by
  simp [edges]

theorem nodup_edges (w : StateId) : (edges w).Nodup := by
  simp [edges, (stateOf_ne w).symm]

theorem disjoint_edges (h : v ≠ w) : (edges v).Disjoint (edges w) := by
  -- The way to a state is not the way back from another one, whose wearer would be longer and shorter.
  have hcross : ¬ (v = stateOf w ∧ stateOf v = w) := by
    rintro ⟨hv, hw⟩
    have hlong := length_stateOf v
    have hlonger := length_stateOf w
    rw [← hv] at hlonger
    rw [hw] at hlong
    omega
  intro edge hv hw
  rw [mem_edges_iff] at hv hw
  grind

theorem nodup_flatMap_edges (h : ws.Nodup) : (ws.flatMap edges).Nodup := by
  rw [List.nodup_flatMap]
  exact ⟨fun w _ => nodup_edges w, h.imp disjoint_edges⟩

theorem schema_of_mem_fragment {t : Transition} (h : t ∈ (fragment w).transitions) : t.schema = .any := by
  have hs := List.mem_map_of_mem (f := Transition.schema) h
  have hall : (fragment w).transitions.map (·.schema) = [.any, .any] := rfl
  rw [hall] at hs
  simpa using hs

/-! ## Composing -/

section

variable {E : Extension} {σ : Type} {m : Machine} {c : Composition E}

theorem contains_builtin (hat : String) :
    (HatRegistry.builtin : HatRegistry E σ).contains hat = decide (hat = name) := by
  unfold Table.contains
  rw [HatRegistry.get?_builtin]
  by_cases h : hat = name
  . simp [h]
  . simp [h]

/-- Composing with the built-in hats succeeds in any world, and leaves the world alone. -/
theorem exists_applyAll (ds : List Declaration) (c : Composition E) (world : σ) :
    ∃ result, Composition.applyAll .builtin ds c world = (.ok result, world) := by
  induction ds generalizing c with
  | nil => exact ⟨c, rfl⟩
  | cons d rest ih =>
    by_cases hd : d.hat = name
    . rw [applyAll_of_apply ((HatRegistry.get?_builtin d.hat).trans (if_pos hd)) rfl rfl]
      exact ih _
    . unfold Composition.applyAll
      rw [HatRegistry.get?_builtin, if_neg hd]
      exact ih _

theorem fragment_of_applies {d : Declaration} {a : AppliedHat}
    (h : Composition.Applies (.builtin : HatRegistry E σ) d a) : a.fragment = fragment d.state := by
  rcases h with ⟨make, hat, context, world, next, after, hget, hmake, happly, _⟩
  rw [HatRegistry.get?_builtin] at hget
  split at hget
  . cases hget
    cases hmake
    simp only [hat, Prod.mk.injEq, Except.ok.injEq] at happly
    exact happly.1.2.symm
  . cases hget

theorem map_fragment_of_applies {ds : List Declaration} {applied : List AppliedHat}
    (h : List.Forall₂ (Composition.Applies (.builtin : HatRegistry E σ)) ds applied) :
    applied.map (·.fragment) = (ds.map (·.state)).map fragment := by
  induction h with
  | nil => rfl
  | cons h _ ih => rw [List.map_cons, List.map_cons, List.map_cons, ih, fragment_of_applies h]

theorem extends_of_tally (t : Composition.Tally (.builtin : HatRegistry E σ) m m.declarations c) :
    Machine.Extends m c.machine ((m.wearers name).map stateOf)
      ((m.wearers name).flatMap fun w => (fragment w).transitions) := by
  have hfragments : c.applied.map (·.fragment) = (m.wearers name).map fragment := by
    have happlied := t.applied
    simp only [contains_builtin] at happlied
    rw [map_fragment_of_applies happlied, Machine.wearers_eq]
  have hadded : ∀ {β : Type} (f : Fragment → List β),
      c.applied.flatMap (fun a => f a.fragment) = (m.wearers name).flatMap fun w => f (fragment w) := by
    intro β f
    have h := congrArg (List.flatMap f) hfragments
    rwa [List.flatMap_map, List.flatMap_map] at h
  have hstates : (c.applied.flatMap (·.fragment.states)).map (·.id) = (m.wearers name).map stateOf := by
    rw [hadded (·.states), List.map_flatMap, List.map_eq_flatMap]
    rfl
  rw [t.machine]
  refine ⟨?_, ?_, rfl, rfl⟩
  . show (Machine.prompted _ _).map (·.id) = _
    rw [Machine.map_id_prompted, Composition.sources, List.map_append, hstates]
  . show m.transitions ++ _ = _
    rw [hadded (·.transitions)]

/-- If the names of states do not clash, those of transitions do not. -/
theorem nodup_append_edges {ws : List StateId} (hm : m.Consistent) (hws : ws.Nodup)
    (hfree : ∀ w ∈ ws, ∀ s ∈ m.states, s.id ≠ stateOf w) :
    (m.transitions.map (·.id) ++ ws.flatMap edges).Nodup := by
  have hunknown : ∀ w ∈ ws, ¬ m.Declares (stateOf w) := by
    rintro w hw (hstart | hfinal | ⟨s, hs, hid⟩)
    . exact (stateOf_ne_sentinel w).1 hstart
    . exact (stateOf_ne_sentinel w).2 hfinal
    . exact hfree w hw s hs hid
  rw [List.nodup_append]
  refine ⟨hm.transitions, nodup_flatMap_edges hws, ?_⟩
  rintro _ hold edge hnew rfl
  -- One end of the transition is a state that the machine does not have.
  rcases List.mem_map.1 hold with ⟨t, ht, hid⟩
  rcases List.mem_flatMap.1 hnew with ⟨w, hw, hedge⟩
  rcases hm.ends t ht with ⟨hsource, htarget⟩
  rw [hid] at hsource htarget
  rcases mem_edges_iff.1 hedge with rfl | rfl
  . exact hunknown w hw htarget
  . exact hunknown w hw hsource

theorem consistent_iff (hm : m.Consistent) {composed : Machine}
    (h : Machine.Extends m composed ((m.wearers name).map stateOf)
      ((m.wearers name).flatMap fun w => (fragment w).transitions)) :
    composed.Consistent ↔
      (m.wearers name).Nodup ∧ ∀ w ∈ m.wearers name, ∀ s ∈ m.states, s.id ≠ stateOf w := by
  constructor
  . intro hcomposed
    have hnodup := hcomposed.states
    rw [h.states, List.nodup_append] at hnodup
    rcases hnodup with ⟨_, hws, hfree⟩
    refine ⟨hws.of_map _, ?_⟩
    intro w hw s hs
    exact hfree s.id (List.mem_map_of_mem hs) (stateOf w) (List.mem_map_of_mem hw)
  . rintro ⟨hws, hfree⟩
    apply h.consistent hm
    . rw [h.states, List.nodup_append]
      refine ⟨hm.states, hws.map fun _ _ => stateOf_inj.1, ?_⟩
      intro a ha b hb
      rcases List.mem_map.1 ha with ⟨s, hs, rfl⟩
      rcases List.mem_map.1 hb with ⟨w, hw, rfl⟩
      exact hfree w hw s hs
    . rw [h.transitions, List.map_append, List.map_flatMap]
      exact nodup_append_edges hm hws hfree
    . intro t ht
      rcases List.mem_flatMap.1 ht with ⟨w, hw, ht⟩
      have hwearer : composed.Declares w := h.declares_iff.2 (.inl (hm.declares_of_mem_wearers hw))
      have hecho : composed.Declares (stateOf w) := h.declares_iff.2 (.inr (List.mem_map_of_mem hw))
      have hedge : t.id ∈ edges w := List.mem_map_of_mem ht
      rcases mem_edges_iff.1 hedge with hid | hid
      . rw [hid]
        exact ⟨hwearer, hecho⟩
      . rw [hid]
        exact ⟨hecho, hwearer⟩
    . intro t ht schema hs
      rcases List.mem_flatMap.1 ht with ⟨w, _, ht⟩
      rw [schema_of_mem_fragment ht] at hs
      cases hs
      exact ⟨_, Definitions.resolve_bool _ _⟩

/--
Composing a machine that is in order with the built-in hats always succeeds. It adds one state and two transitions for
each time that a state wears the hat `echo`, and the result is in order exactly if no state wears it twice and the
machine has no state with the name of one that is added.
-/
theorem echoes_consistent_iff (context : Context E) (world : σ) (hm : m.check = .ok ()) :
    ∃ c, applyHats .builtin context m world = (.ok c, world)
      ∧ (c.machine.check = .ok () ↔
          (m.wearers name).Nodup ∧ ∀ w ∈ m.wearers name, ∀ s ∈ m.states, s.id ≠ stateOf w)
      ∧ c.machine.states.map (·.id) = m.states.map (·.id) ++ (m.wearers name).map stateOf
      ∧ c.machine.transitions.map (·.id) =
          m.transitions.map (·.id) ++ (m.wearers name).flatMap fun w => [⟨w, stateOf w⟩, ⟨stateOf w, w⟩] := by
  rcases exists_applyAll m.declarations (.start context m) world with ⟨c, h⟩
  have t := Composition.tally_applyAll (.start .builtin context m) h
  rw [List.nil_append] at t
  have hextends := extends_of_tally t
  rw [Machine.check_eq_ok_iff] at hm
  refine ⟨c, h, ?_, hextends.states, ?_⟩
  . rw [Machine.check_eq_ok_iff]
    exact consistent_iff hm hextends
  . rw [hextends.transitions, List.map_append, List.map_flatMap]
    rfl

end

end Echo

/-!
A machine that puts the hat on its state and on the one from which events come, and the same machine with the hat on
the state once more.
-/

namespace Sample

def echoing (hats : List HatDecl) : Machine :=
  { Machine.new "gate" "4" with hats := .ofList [(Echo.name, [⟨"work"⟩, .start])] }
    |>.addState { State.new ⟨"work"⟩ with hats }
    |>.addTransition (.new .start ⟨"work"⟩)

end Sample

namespace Echo

theorem echoes_consistent_iff_work :
    (∃ c, applyHats .builtin Sample.context (Sample.echoing []) () = (.ok c, ())
        ∧ c.machine.check = .ok ()
        ∧ c.machine.states.map (·.id) = [⟨"work"⟩, ⟨"work-echo"⟩, ⟨"start-echo"⟩])
    ∧ ∃ c, applyHats .builtin Sample.context (Sample.echoing [.bare Echo.name]) () = (.ok c, ())
        ∧ c.machine.check ≠ .ok () := by
  have honce : (Sample.echoing []).check = .ok () := by rfl
  have htwice : (Sample.echoing [.bare Echo.name]).check = .ok () := by rfl
  rcases echoes_consistent_iff Sample.context () honce with ⟨c, h, hcheck, hstates, _⟩
  rcases echoes_consistent_iff Sample.context () htwice with ⟨d, h', hcheck', _⟩
  refine ⟨⟨c, h, hcheck.2 ?_, hstates.trans ?_⟩, d, h', fun hd => ?_⟩
  . decide +kernel
  . decide +kernel
  . exact absurd (hcheck'.1 hd).1 (by decide +kernel)

end Echo

end Turnstile
