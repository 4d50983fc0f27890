import Mathlib.Data.List.Forall2
import Turnstile.Proofs.Hat.Fitting
import Turnstile.Proofs.Run.Chronicle

/-!
This module contains what composing makes of a machine: hats add states, transitions and prompt lines, and change
nothing else. Each line goes to the first state with the identifier that it is addressed to, if there is one by
then; and each declaration of the machine is answered by a hat or by a warning, those of added states by neither.
-/

namespace Turnstile

/-! ## Prompt lines -/

/-- The state with more prompt lines. -/
def State.addPrompts (s : State) (lines : List String) : State :=
  { s with prompts := s.prompts ++ lines }

@[simp]
theorem State.addPrompts_nil (s : State) : s.addPrompts [] = s := by
  simp [addPrompts]

@[simp]
theorem State.addPrompts_addPrompts (s : State) (lines more : List String) :
    (s.addPrompts lines).addPrompts more = s.addPrompts (lines ++ more) := by
  simp [addPrompts]

namespace Machine

/-- Puts lines into each state that no state with the same identifier precedes. -/
def prompted (lines : StateId → List String) (states : List State) : List State :=
  states.zipIdx.map fun (s, n) =>
    if s.id ∈ (states.map (·.id)).take n then s else s.addPrompts (lines s.id)

variable {lines more : StateId → List String} {states : List State}

@[simp]
theorem prompted_nil (lines : StateId → List String) : prompted lines [] = [] :=
  rfl

/-- The first state gets its lines, and no other state with its identifier gets any. -/
theorem prompted_cons (lines : StateId → List String) (s : State) (rest : List State) :
    prompted lines (s :: rest) =
      s.addPrompts (lines s.id) :: prompted (fun id => if id = s.id then [] else lines id) rest := by
  unfold prompted
  rw [List.zipIdx_cons, List.zipIdx_succ, List.map_cons, List.map_map]
  congr 1
  apply List.map_congr_left
  rintro ⟨t, n⟩ _
  by_cases ht : t.id ∈ (rest.map (·.id)).take n
  . simp [ht]
  . by_cases hs : t.id = s.id
    . simp [hs]
    . simp [ht, hs]

/-- Lines change nothing of states that does not depend on lines. -/
theorem map_prompted {β : Type} {f : State → β} (hf : ∀ s lines, f (s.addPrompts lines) = f s)
    (lines : StateId → List String) (states : List State) : (prompted lines states).map f = states.map f := by
  induction states generalizing lines with
  | nil => rfl
  | cons s rest ih => rw [prompted_cons, List.map_cons, List.map_cons, ih, hf]

theorem map_id_prompted (lines : StateId → List String) (states : List State) :
    (prompted lines states).map (·.id) = states.map (·.id) :=
  map_prompted (fun _ _ => rfl) lines states

theorem prompted_congr (h : ∀ s ∈ states, lines s.id = more s.id) : prompted lines states = prompted more states := by
  induction states generalizing lines more with
  | nil => rfl
  | cons s rest ih =>
    rw [prompted_cons, prompted_cons, h s (by simp)]
    congr 1
    apply ih
    intro t ht
    rw [h t (List.mem_cons_of_mem _ ht)]

theorem prompted_of_no_lines (h : ∀ s ∈ states, lines s.id = []) : prompted lines states = states := by
  induction states generalizing lines with
  | nil => rfl
  | cons s rest ih =>
    rw [prompted_cons, h s (by simp), State.addPrompts_nil, ih]
    intro t ht
    rw [h t (List.mem_cons_of_mem _ ht), ite_self]

theorem prompted_prompted (lines more : StateId → List String) (states : List State) :
    prompted more (prompted lines states) = prompted (fun id => lines id ++ more id) states := by
  induction states generalizing lines more with
  | nil => rfl
  | cons s rest ih =>
    have hid : (s.addPrompts (lines s.id)).id = s.id := rfl
    rw [prompted_cons, prompted_cons, prompted_cons, ih, State.addPrompts_addPrompts, hid]
    congr 1
    apply prompted_congr
    intro t _
    by_cases hs : t.id = s.id
    . simp [hs]
    . simp [hs]

theorem prompted_append (lines : StateId → List String) (states added : List State) :
    prompted lines (states ++ added) =
      prompted lines states ++
        prompted (fun id => if id ∈ states.map (·.id) then [] else lines id) added := by
  induction states generalizing lines with
  | nil => simp
  | cons s rest ih =>
    rw [List.cons_append, prompted_cons, prompted_cons, ih, List.cons_append]
    congr 2
    apply prompted_congr
    intro t _
    by_cases hs : t.id = s.id
    . simp [hs]
    . simp [hs]

theorem promptFirst_eq (id : StateId) (given : List String) (states : List State) :
    promptFirst id given states = prompted (fun other => if other = id then given else []) states := by
  induction states with
  | nil => rfl
  | cons s rest ih =>
    rw [prompted_cons]
    unfold promptFirst
    by_cases hs : s.id = id
    . rw [if_pos hs, if_pos hs, prompted_of_no_lines]
      . rfl
      . intro t _
        rw [hs]
        split
        . rfl
        . rfl
    . rw [if_neg hs, if_neg hs, State.addPrompts_nil, ih]
      congr 1
      apply prompted_congr
      intro t _
      by_cases ht : t.id = s.id
      . rw [if_pos ht, if_neg (ht ▸ hs)]
      . rw [if_neg ht]

end Machine

namespace Fragment

/-- The lines that the fragment has for a state. -/
def linesFor (f : Fragment) (id : StateId) : List String :=
  (f.prompts.get? id.name).getD []

/-- The states that the fragment has lines for, but which are not there. -/
def missing (f : Fragment) (ids : List StateId) : List StateId :=
  (f.prompts.keys.map StateId.mk).filter (· ∉ ids)

theorem isSome_state?_iff (m : Machine) (id : StateId) : (m.state? id).isSome ↔ id ∈ m.states.map (·.id) := by
  unfold Machine.state?
  simp

theorem addressPrompts_eq (m : Machine) {entries : List (String × List String)}
    (h : (entries.map Prod.fst).Nodup) :
    addressPrompts m entries =
      ({ m with
          states := Machine.prompted (fun id => (entries.lookup id.name).getD []) m.states },
        (entries.map (StateId.mk ·.1)).filter (· ∉ m.states.map (·.id))) := by
  induction entries generalizing m with
  | nil =>
    unfold addressPrompts
    rw [Machine.prompted_of_no_lines (by simp)]
    rfl
  | cons entry rest ih =>
    rcases entry with ⟨target, given⟩
    rw [List.map_cons, List.nodup_cons] at h
    unfold addressPrompts
    split
    . next hpresent =>
      rw [isSome_state?_iff] at hpresent
      have hstates : (m.addPrompts ⟨target⟩ given).states =
          Machine.prompted (fun id => if id = ⟨target⟩ then given else []) m.states :=
        Machine.promptFirst_eq _ _ _
      rw [ih _ h.2, hstates, Machine.prompted_prompted, Machine.map_id_prompted, List.map_cons,
        List.filter_cons_of_neg (by simpa using hpresent)]
      congr 2
      apply Machine.prompted_congr
      intro s _
      by_cases hs : s.id = ⟨target⟩
      . -- No other entry has this target.
        have hnone : rest.lookup target = none := Table.lookup_eq_none_iff_not_mem.2 h.1
        simp [hs, hnone]
      . have hname : s.id.name ≠ target := fun heq => hs (heq ▸ rfl)
        rw [if_neg hs, List.nil_append, List.lookup_cons, beq_false_of_ne hname]
    . next habsent =>
      rw [isSome_state?_iff] at habsent
      rw [ih _ h.2, List.map_cons, List.filter_cons_of_pos (by simpa using habsent)]
      dsimp only
      congr 2
      apply Machine.prompted_congr
      intro s hs
      have hname : s.id.name ≠ target := by
        rintro rfl
        exact habsent (List.mem_map_of_mem hs)
      rw [List.lookup_cons, beq_false_of_ne hname]

theorem mergeInto_eq (f : Fragment) (m : Machine) :
    f.mergeInto m =
      ({ m with
          states := Machine.prompted f.linesFor (m.states ++ f.states)
          transitions := m.transitions ++ f.transitions },
        f.missing ((m.states ++ f.states).map (·.id))) := by
  unfold mergeInto missing Table.keys
  rw [addressPrompts_eq _ f.prompts.nodup, List.map_map]
  rfl

theorem mem_missing_iff (f : Fragment) (ids : List StateId) (id : StateId) :
    id ∈ f.missing ids ↔ id.name ∈ f.prompts.keys ∧ id ∉ ids := by
  unfold missing
  rw [List.mem_filter, List.mem_map, decide_eq_true_eq]
  constructor
  . rintro ⟨⟨name, hname, rfl⟩, hid⟩
    exact ⟨hname, hid⟩
  . rintro ⟨hname, hid⟩
    exact ⟨⟨id.name, hname, rfl⟩, hid⟩

theorem nodup_missing (f : Fragment) (ids : List StateId) : (f.missing ids).Nodup := by
  have hkeys : (f.prompts.keys.map StateId.mk).Nodup := by
    apply f.prompts.nodup.map
    intro name other h
    injection h
  exact hkeys.filter _

end Fragment

/-! ## What a composition has added -/

namespace CompositionWarning

def isUnknownHat : CompositionWarning → Bool
  | unknownHat _ _ => true
  | unknownPromptTarget _ _ => false

@[simp]
theorem isUnknownHat_unknownHat (hat : String) (state : StateId) : (unknownHat hat state).isUnknownHat = true :=
  rfl

@[simp]
theorem isUnknownHat_unknownPromptTarget (hat : String) (target : StateId) :
    (unknownPromptTarget hat target).isUnknownHat = false :=
  rfl

end CompositionWarning

namespace Composition

variable {E : Extension} {σ : Type} {registry : HatRegistry E σ} {machine : Machine} {applied : List AppliedHat}
  {a : AppliedHat} {d : Declaration} {ds done : List Declaration} {c result : Composition E} {context : Context E}
  {world after : σ}

/-- The states of the machine and then those that came with the fragments, as they came. -/
def sources (machine : Machine) (applied : List AppliedHat) : List State :=
  machine.states ++ applied.flatMap (·.fragment.states)

/-- The identifiers of the states that are there right after those of the `n`-th fragment. -/
def present (machine : Machine) (applied : List AppliedHat) (n : Nat) : List StateId :=
  (sources machine (applied.take (n + 1))).map (·.id)

/-- The lines that the fragments have for a state, from the one on with which it is there. -/
def received (machine : Machine) (applied : List AppliedHat) (id : StateId) : List String :=
  applied.zipIdx.flatMap fun (a, n) =>
    if id ∈ present machine applied n then a.fragment.linesFor id else []

/-- The warnings over lines for states that are not there. -/
def dropped (machine : Machine) (applied : List AppliedHat) : List CompositionWarning :=
  applied.zipIdx.flatMap fun (a, n) =>
    (a.fragment.missing (present machine applied n)).map (.unknownPromptTarget a.hat)

/-- The entry is what a hat of the registry has made of the declaration. -/
def Applies (registry : HatRegistry E σ) (d : Declaration) (a : AppliedHat) : Prop :=
  ∃ make hat context world next after, registry.get? d.hat = some make ∧ make d.state d.config = .ok hat
    ∧ hat.apply context world = (.ok (next, a.fragment), after)
    ∧ a.hat = d.hat ∧ a.state = d.state ∧ a.kind = hat.kind

theorem sources_concat (machine : Machine) (applied : List AppliedHat) (a : AppliedHat) :
    sources machine (applied ++ [a]) = sources machine applied ++ a.fragment.states := by
  simp [sources]

theorem present_concat_of_lt {n : Nat} (h : n < applied.length) :
    present machine (applied ++ [a]) n = present machine applied n := by
  unfold present
  rw [List.take_append_of_le_length h]

theorem present_concat_length (machine : Machine) (applied : List AppliedHat) (a : AppliedHat) :
    present machine (applied ++ [a]) applied.length
      = (sources machine applied ++ a.fragment.states).map (·.id) := by
  unfold present
  rw [List.take_of_length_le (by simp), sources_concat]

/-- What fragments do is not changed by what comes after them. -/
theorem flatMap_zipIdx_concat {β : Type} (f : List StateId → AppliedHat → List β) :
    ((applied ++ [a]).zipIdx.flatMap fun (b, n) => f (present machine (applied ++ [a]) n) b) =
      (applied.zipIdx.flatMap fun (b, n) => f (present machine applied n) b) ++
        f ((sources machine applied ++ a.fragment.states).map (·.id)) a := by
  rw [List.zipIdx_append, List.flatMap_append, Nat.zero_add, List.zipIdx_singleton, List.flatMap_singleton]
  dsimp only
  rw [present_concat_length]
  congr 1
  apply List.flatMap_congr
  rintro ⟨b, n⟩ hb
  rw [present_concat_of_lt (List.snd_lt_of_mem_zipIdx hb)]

theorem received_concat (machine : Machine) (applied : List AppliedHat) (a : AppliedHat) (id : StateId) :
    received machine (applied ++ [a]) id =
      received machine applied id ++
        if id ∈ (sources machine applied ++ a.fragment.states).map (·.id) then a.fragment.linesFor id else [] :=
  flatMap_zipIdx_concat fun ids b => if id ∈ ids then b.fragment.linesFor id else []

theorem dropped_concat (machine : Machine) (applied : List AppliedHat) (a : AppliedHat) :
    dropped machine (applied ++ [a]) =
      dropped machine applied ++
        (a.fragment.missing ((sources machine applied ++ a.fragment.states).map (·.id))).map
          (.unknownPromptTarget a.hat) :=
  flatMap_zipIdx_concat fun ids b => (b.fragment.missing ids).map (CompositionWarning.unknownPromptTarget b.hat)

/-- Nothing is received before there is a state to receive it. -/
theorem received_of_not_mem {id : StateId} (h : id ∉ (sources machine applied).map (·.id)) :
    received machine applied id = [] := by
  unfold received
  rw [List.flatMap_eq_nil_iff]
  rintro ⟨a, n⟩ _
  refine if_neg (fun hid => h ?_)
  unfold present sources at hid
  unfold sources
  simp only [List.map_append, List.mem_append, List.mem_map, List.mem_flatMap] at hid ⊢
  rcases hid with hid | ⟨s, ⟨b, hb, hs⟩, hid⟩
  . exact .inl hid
  . exact .inr ⟨s, ⟨b, List.mem_of_mem_take hb, hs⟩, hid⟩

/-- The machine that comes of the fragments of the entries. -/
def extended (machine : Machine) (applied : List AppliedHat) : Machine :=
  { machine with
    states := Machine.prompted (received machine applied) (sources machine applied)
    transitions := machine.transitions ++ applied.flatMap (·.fragment.transitions) }

/-- A composition that has done with some declarations. -/
structure Tally (registry : HatRegistry E σ) (machine : Machine) (done : List Declaration) (c : Composition E) :
    Prop where
  applied : List.Forall₂ (Applies registry) (done.filter fun d => registry.contains d.hat) c.applied
  unknown : c.warnings.filter (·.isUnknownHat) =
    (done.filter fun d => !registry.contains d.hat).map fun d => .unknownHat d.hat d.state
  dropped : c.warnings.filter (!·.isUnknownHat) = dropped machine c.applied
  machine : c.machine = extended machine c.applied

theorem Tally.start (registry : HatRegistry E σ) (context : Context E) (machine : Machine) :
    Tally registry machine [] (start context machine) := by
  refine ⟨.nil, rfl, rfl, ?_⟩
  have hstates : Machine.prompted (received machine []) (sources machine []) = machine.states := by
    rw [Machine.prompted_of_no_lines fun _ _ => rfl]
    simp [sources]
  simp [Composition.start, extended, hstates]

theorem Tally.warn (t : Tally registry machine done c) (hget : registry.get? d.hat = none) :
    Tally registry machine (done ++ [d]) (c.warn [.unknownHat d.hat d.state]) := by
  have hcontains : registry.contains d.hat = false := by
    unfold Table.contains
    rw [hget]
    rfl
  refine ⟨?_, ?_, ?_, t.machine⟩
  . have := t.applied
    simpa [hcontains, Composition.warn] using this
  . simp [Composition.warn, t.unknown, hcontains]
  . simp [Composition.warn, t.dropped]

/-- One more fragment, which was put onto the machine that the ones before it have made. -/
theorem mergeInto_extended (machine : Machine) (applied : List AppliedHat) (a : AppliedHat) :
    a.fragment.mergeInto (extended machine applied) =
      (extended machine (applied ++ [a]),
        a.fragment.missing ((sources machine applied ++ a.fragment.states).map (·.id))) := by
  have hbase : Machine.prompted (received machine applied) (sources machine applied) ++ a.fragment.states =
      Machine.prompted (received machine applied) (sources machine applied ++ a.fragment.states) := by
    rw [Machine.prompted_append]
    congr 1
    symm
    apply Machine.prompted_of_no_lines
    intro s _
    split
    . rfl
    . next hs => exact received_of_not_mem hs
  have hstates : Machine.prompted a.fragment.linesFor
      (Machine.prompted (received machine applied) (sources machine applied ++ a.fragment.states)) =
        Machine.prompted (received machine (applied ++ [a])) (sources machine (applied ++ [a])) := by
    rw [Machine.prompted_prompted, sources_concat]
    apply Machine.prompted_congr
    intro s hs
    rw [received_concat, if_pos (List.mem_map_of_mem hs)]
  rw [Fragment.mergeInto_eq]
  unfold extended
  dsimp only
  rw [hbase, hstates, Machine.map_id_prompted, List.flatMap_append, List.append_assoc, List.flatMap_singleton]

theorem add_of_extended (d : Declaration) (kind : HatKind) (next : Context E) (fragment : Fragment)
    (h : c.machine = extended machine c.applied) :
    c.add d kind next fragment =
      ⟨next, extended machine (c.applied ++ [⟨d.hat, d.state, kind, fragment⟩]),
        c.applied ++ [⟨d.hat, d.state, kind, fragment⟩],
        c.warnings ++ (fragment.missing ((sources machine c.applied ++ fragment.states).map (·.id))).map
          (.unknownPromptTarget d.hat)⟩ := by
  have hmerge := mergeInto_extended machine c.applied ⟨d.hat, d.state, kind, fragment⟩
  rw [← h] at hmerge
  dsimp only at hmerge
  unfold add
  rw [hmerge]
  rfl

theorem Tally.add (t : Tally registry machine done c) {make : HatMaker E σ} {hat : Hat E σ} {next : Context E}
    {fragment : Fragment} (hget : registry.get? d.hat = some make) (hmake : make d.state d.config = .ok hat)
    (happly : hat.apply c.context world = (.ok (next, fragment), after)) :
    Tally registry machine (done ++ [d]) (c.add d hat.kind next fragment) := by
  have hcontains : registry.contains d.hat = true := by
    unfold Table.contains
    rw [hget]
    rfl
  have happlies : Applies registry d ⟨d.hat, d.state, hat.kind, fragment⟩ :=
    ⟨make, hat, c.context, world, next, after, hget, hmake, happly, rfl, rfl, rfl⟩
  rw [add_of_extended d hat.kind next fragment t.machine]
  refine ⟨?_, ?_, ?_, rfl⟩
  . rw [List.filter_append, List.filter_singleton, hcontains]
    exact List.rel_append t.applied (.cons happlies .nil)
  . simp [t.unknown, hcontains]
  . rw [dropped_concat, ← t.dropped]
    simp

theorem tally_applyAll (t : Tally registry machine done c)
    (h : applyAll registry ds c world = (.ok result, after)) : Tally registry machine (done ++ ds) result := by
  induction ds generalizing done c world with
  | nil =>
    simp only [applyAll, Prod.mk.injEq, Except.ok.injEq] at h
    rw [← h.1, List.append_nil]
    exact t
  | cons d rest ih =>
    rw [List.append_cons]
    rcases cases_of_applyAll h with ⟨hget, h⟩ | ⟨make, hat, next, fragment, between, hget, hmake, happly, h⟩
    . exact ih (t.warn hget) h
    . exact ih (t.add hget hmake happly) h

/--
Composing adds to a machine and changes nothing else. Each declaration of the machine is answered exactly once, by a
hat that is applied or, if the registry does not know the hat, by a warning, in the order of the declarations. The
states and transitions of the fragments follow those of the machine, in the order of application. Of the states only
the prompts change: the first one with an identifier gets the lines that fragments have for it, from the fragment on
with which it is there. Lines for a state that is not there by then are dropped, with one warning for each fragment.
-/
theorem composing_adds (h : applyHats registry context machine world = (.ok c, after)) :
    List.Forall₂ (Applies registry) (machine.declarations.filter fun d => registry.contains d.hat) c.applied
    ∧ c.warnings.filter (·.isUnknownHat) =
        (machine.declarations.filter fun d => !registry.contains d.hat).map (fun d => .unknownHat d.hat d.state)
    ∧ c.machine = { machine with
        states := Machine.prompted (received machine c.applied) (sources machine c.applied)
        transitions := machine.transitions ++ c.applied.flatMap (·.fragment.transitions) }
    ∧ c.warnings.filter (!·.isUnknownHat) = dropped machine c.applied
    ∧ ∀ (n : Nat) (a : AppliedHat), c.applied[n]? = some a →
        (a.fragment.missing (present machine c.applied n)).Nodup
        ∧ ∀ id, id ∈ a.fragment.missing (present machine c.applied n) ↔
            id.name ∈ a.fragment.prompts.keys
              ∧ ¬ ∃ s ∈ sources machine (c.applied.take (n + 1)), s.id = id := by
  have t := tally_applyAll (Tally.start registry context machine) h
  refine ⟨t.applied, t.unknown, t.machine, t.dropped, ?_⟩
  intro n a _
  refine ⟨a.fragment.nodup_missing _, ?_⟩
  intro id
  rw [Fragment.mem_missing_iff]
  unfold present
  rw [List.mem_map]

end Composition

/-!
A machine whose only state wears a hat with lines for a board, and then a hat that brings the board. The board wears
the first hat as well, to no effect.
-/

namespace Sample

def pin : HatMaker extension Unit := fun state _ =>
  let fragment := Fragment.empty.addPrompt state "pin" |>.addPrompt ⟨"board"⟩ "note"
  .ok ⟨.static, fun context world => (.ok (context, fragment), world)⟩

def board : HatMaker extension Unit := fun _ _ =>
  let fragment := Fragment.empty.addState { State.new ⟨"board"⟩ with hats := [.bare "pin"] }
  .ok ⟨.static, fun context world => (.ok (context, fragment), world)⟩

def stationery : HatRegistry extension Unit :=
  Table.ofList [("pin", pin), ("board", board)]

def office : Machine :=
  { Machine.new "office" "1" with hats := .ofList [("pin", [⟨"desk"⟩])] }
    |>.addState { State.new ⟨"desk"⟩ with hats := [.bare "pin", .bare "board", .bare "ghost"] }

end Sample

namespace Composition

theorem composing_adds_office :
    ∃ c, applyHats Sample.stationery Sample.context Sample.office () = (.ok c, ())
      ∧ c.machine.states.map (fun s => (s.id.name, s.prompts)) = [("desk", ["pin", "pin"]), ("board", ["note"])]
      ∧ c.warnings.filter (·.isUnknownHat) = [.unknownHat "ghost" ⟨"desk"⟩]
      ∧ c.warnings.filter (!·.isUnknownHat) = [.unknownPromptTarget "pin" ⟨"board"⟩] := by
  have hcomposed : ∃ c, applyHats Sample.stationery Sample.context Sample.office () = (.ok c, ())
      ∧ (Machine.prompted (received Sample.office c.applied) (sources Sample.office c.applied)).map
          (fun s => (s.id.name, s.prompts)) = [("desk", ["pin", "pin"]), ("board", ["note"])]
      ∧ dropped Sample.office c.applied = [.unknownPromptTarget "pin" ⟨"board"⟩] := by
    refine ⟨_, rfl, ?_, ?_⟩
    . decide +kernel
    . decide +kernel
  rcases hcomposed with ⟨c, h, hprompts, hwarnings⟩
  rcases composing_adds h with ⟨_, hunknown, hmachine, hdropped, _⟩
  refine ⟨c, h, ?_, ?_, hdropped.trans hwarnings⟩
  . rw [hmachine]
    exact hprompts
  . rw [hunknown]
    rfl

end Composition

end Turnstile
