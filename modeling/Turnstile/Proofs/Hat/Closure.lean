import Turnstile.Hat.Composition
import Turnstile.Hat.Tools
import Turnstile.Proofs.Hat.Addition
import Turnstile.Proofs.Run.Static
import Turnstile.Proofs.Table

/-!
This module contains the closure of compositions: hats register whatever the states and transitions that they
add refer to, and no later hat takes it away. A composed machine therefore starts unless something is wrong
with the machine as it was declared, and what was added always finds its schemas.
-/

namespace Turnstile

namespace Context

variable {E : Extension} {c d e : Context E} {key name : String}

/-- The key stands for the catalogue of a session that is there. -/
def Serves (c : Context E) (key : String) : Prop :=
  ∃ session direction, c.provider? key = some (.catalogue session direction)
    ∧ (c.session? session).isSome

/-- What can be looked up in the first context can be looked up in the second one. -/
structure Grows (c d : Context E) : Prop where
  actions : ∀ name, c.hasAction name = true → d.hasAction name = true
  providers : ∀ key, (c.provider? key).isSome → (d.provider? key).isSome
  serves : ∀ key, c.Serves key → d.Serves key

theorem Grows.refl (c : Context E) : Grows c c :=
  ⟨fun _ => id, fun _ => id, fun _ => id⟩

theorem Grows.trans (h : Grows c d) (h' : Grows d e) : Grows c e where
  actions name hn := h'.actions name (h.actions name hn)
  providers key hk := h'.providers key (h.providers key hk)
  serves key hk := h'.serves key (h.serves key hk)

/-- The action of a state is registered, given the identifier of the state and the name of the action. -/
def Supplies (c : Context E) (entry : StateId × Option String) : Prop :=
  ∃ name, entry.2 = some name ∧ c.hasAction name = true

/-- The schema of a transition is fixed, or there is a session to provide it. -/
def Provides (c : Context E) (t : Transition) : Prop :=
  ∀ key, t.schema = .provided key → c.Serves key

theorem Grows.supplies {entry : StateId × Option String} (h : Grows c d) (hs : c.Supplies entry) :
    d.Supplies entry := by
  rcases hs with ⟨name, hname, haction⟩
  exact ⟨name, hname, h.actions name haction⟩

theorem Grows.provides {t : Transition} (h : Grows c d) (ht : c.Provides t) : d.Provides t := by
  intro key hkey
  exact h.serves key (ht key hkey)

theorem hasAction_addAction (c : Context E) (name : String) (action : Action E) :
    (c.addAction name action).hasAction name = true := by
  simp [hasAction, addAction, Table.contains, Table.get?_insert]

theorem grows_addAction (c : Context E) (name : String) (action : Action E) :
    Grows c (c.addAction name action) where
  actions _ h := Table.isSome_get?_insert h
  providers _ := id
  serves _ := id

theorem serves_addProvider_self {session : String} {direction : Direction}
    (h : (c.session? session).isSome) :
    (c.addProvider key (.catalogue session direction)).Serves key := by
  refine ⟨session, direction, ?_, h⟩
  simp [provider?, addProvider, Table.get?_insert]

theorem grows_addProvider {session : String} (key : String) (direction : Direction)
    (h : (c.session? session).isSome) :
    Grows c (c.addProvider key (.catalogue session direction)) where
  actions _ := id
  providers _ h := Table.isSome_get?_insert h
  serves other := by
    intro ⟨s, d, hprovider, hsession⟩
    by_cases hk : other = key
    . subst hk
      exact serves_addProvider_self h
    . refine ⟨s, d, ?_, hsession⟩
      unfold provider? at hprovider ⊢
      simp [addProvider, Table.get?_insert, hk, hprovider]

theorem isSome_session?_setHatState {other : String} {session : ToolSession}
    (h : (c.session? other).isSome) : ((c.setHatState key (.session session)).session? other).isSome := by
  unfold session? at h ⊢
  simp only [setHatState, Table.get?_insert]
  by_cases hk : other = key
  . simp [hk]
  . rw [if_neg hk]
    exact h

theorem session?_setHatState (c : Context E) (key : String) (session : ToolSession) :
    (c.setHatState key (.session session)).session? key = some session := by
  simp [session?, setHatState, Table.get?_insert]

theorem grows_setHatState (c : Context E) (key : String) (session : ToolSession) :
    Grows c (c.setHatState key (.session session)) where
  actions _ := id
  providers _ := id
  serves _ := fun ⟨s, d, hprovider, hsession⟩ => ⟨s, d, hprovider, isSome_session?_setHatState hsession⟩

theorem grows_addStopHook (c : Context E) (hook : StopHook E) : Grows c (c.addStopHook hook) :=
  ⟨fun _ => id, fun _ => id, fun _ => id⟩

end Context

/-! ## What hats add -/

/-- What composing leaves of a state: prompts may be added to it. -/
def State.entry (s : State) : StateId × Option String :=
  (s.id, s.action)

namespace Fragment

theorem mergeInto_frame (f : Fragment) (m : Machine) :
    (f.mergeInto m).1.states.map State.entry
      = m.states.map State.entry ++ f.states.map State.entry
    ∧ (f.mergeInto m).1.transitions = m.transitions ++ f.transitions := by
  rw [mergeInto_eq, ← List.map_append]
  exact ⟨Machine.map_prompted (fun _ _ => rfl) _ _, rfl⟩

end Fragment

/-- Whatever the hat adds to a machine is registered in the context that it returns. -/
structure Hat.Supports {E : Extension} (context next : Context E) (fragment : Fragment) : Prop where
  grows : context.Grows next
  states : ∀ s ∈ fragment.states, next.Supplies s.entry
  transitions : ∀ t ∈ fragment.transitions, next.Provides t

def Hat.IsClosed {E : Extension} {σ : Type} (hat : Hat E σ) : Prop :=
  ∀ context world next fragment after, hat.apply context world = (.ok (next, fragment), after) →
    Hat.Supports context next fragment

def HatRegistry.IsClosed {E : Extension} {σ : Type} (registry : HatRegistry E σ) : Prop :=
  ∀ name make state config hat, registry.get? name = some make → make state config = .ok hat →
    hat.IsClosed

namespace Echo

variable {E : Extension} {σ : Type}

theorem grows_extend (context : Context E) : context.Grows (extend context) := by
  unfold extend
  split
  . exact .refl context
  . exact Context.grows_addAction context name .echo

theorem hasAction_extend (context : Context E) : (extend context).hasAction name = true := by
  unfold extend
  split
  . assumption
  . exact Context.hasAction_addAction context name .echo

theorem isClosed_hat (state : StateId) : (hat state : Hat E σ).IsClosed := by
  intro context world next fragment after h
  simp only [hat, Prod.mk.injEq, Except.ok.injEq] at h
  rcases h with ⟨⟨rfl, rfl⟩, _⟩
  refine ⟨grows_extend context, ?_, ?_⟩
  . intro s hs
    simp only [Echo.fragment, Fragment.addState, Fragment.addTransition, Fragment.addPrompt,
      Fragment.empty, List.nil_append, List.mem_singleton] at hs
    subst hs
    exact ⟨name, rfl, hasAction_extend context⟩
  . intro t ht key hkey
    simp only [Echo.fragment, Fragment.addState, Fragment.addTransition, Fragment.addPrompt,
      Fragment.empty, List.nil_append, List.mem_append, List.mem_singleton] at ht
    rcases ht with rfl | rfl
    . cases hkey
    . cases hkey

end Echo

namespace Tools

variable {E : Extension} {σ : Type} [HasPool σ]

theorem fragment_frame (state : StateId) (tools : List Tool) :
    (fragment state tools).states.map State.entry = [(stateOf state, some (stateOf state).name)]
    ∧ (fragment state tools).transitions.map (·.schema)
      = [.provided (requestKey state), .provided (responseKey state)] := by
  have hfold : ∀ base : Fragment, (tools.foldl (fun f tool => f.addPrompt state tool.describe) base).states
        = base.states
      ∧ (tools.foldl (fun f tool => f.addPrompt state tool.describe) base).transitions
        = base.transitions := by
    induction tools with
    | nil => exact fun _ => ⟨rfl, rfl⟩
    | cons tool rest ih => exact fun base => ih (base.addPrompt state tool.describe)
  unfold fragment
  dsimp only
  rw [(hfold _).1, (hfold _).2]
  exact ⟨rfl, rfl⟩

theorem openSession_frame {state : StateId} {config : Option BridgeConfig} {context next : Context E}
    {world after : σ} {bridge : BridgeRef}
    (h : openSession state config context world = (.ok (next, bridge), after)) :
    context.Grows next ∧ (next.session? (sessionKey state)).isSome := by
  unfold openSession at h
  split at h
  . next session hsession =>
    simp only [Prod.mk.injEq, Except.ok.injEq] at h
    rcases h with ⟨⟨rfl, _⟩, _⟩
    exact ⟨.refl context, by rw [hsession]; rfl⟩
  . cases h
  . dsimp only at h
    split at h
    . simp only [Prod.mk.injEq, Except.ok.injEq] at h
      rcases h with ⟨⟨rfl, _⟩, _⟩
      constructor
      . exact (Context.grows_setHatState context _ _).trans (Context.grows_addStopHook _ _)
      . show ((context.setHatState _ _).session? _).isSome
        rw [Context.session?_setHatState]
        rfl
    . cases h

theorem supports_extend {context : Context E} {state : StateId} (tools : List Tool)
    (h : (context.session? (sessionKey state)).isSome) :
    Hat.Supports context (extend context state) (fragment state tools) := by
  rcases fragment_frame state tools with ⟨hstates, htransitions⟩
  have hrequest := Context.grows_addProvider (requestKey state) .request h
  have hresponse := Context.grows_addProvider
    (c := context.addProvider (requestKey state) (.catalogue (sessionKey state) .request))
    (responseKey state) .response h
  have haction := Context.grows_addAction
    ((context.addProvider (requestKey state) (.catalogue (sessionKey state) .request)).addProvider
      (responseKey state) (.catalogue (sessionKey state) .response)) (stateOf state).name (.tool state)
  refine ⟨hrequest.trans (hresponse.trans haction), ?_, ?_⟩
  . intro s hs
    have hs := List.mem_map_of_mem (f := State.entry) hs
    rw [hstates, List.mem_singleton] at hs
    rw [hs]
    exact ⟨_, rfl, Context.hasAction_addAction _ _ _⟩
  . intro t ht key hkey
    have ht := List.mem_map_of_mem (f := Transition.schema) ht
    rw [htransitions, hkey] at ht
    simp only [List.mem_cons, SchemaSource.provided.injEq, List.not_mem_nil, or_false] at ht
    rcases ht with rfl | rfl
    . apply (hresponse.trans haction).serves
      exact Context.serves_addProvider_self h
    . apply haction.serves
      exact Context.serves_addProvider_self h

theorem isClosed_hat (state : StateId) (config : Option BridgeConfig) :
    (hat state config : Hat E σ).IsClosed := by
  intro context world next fragment after h
  simp only [hat] at h
  split at h
  . next opened bridge later hopen =>
    simp only [Prod.mk.injEq, Except.ok.injEq] at h
    rcases h with ⟨⟨rfl, rfl⟩, _⟩
    rcases openSession_frame hopen with ⟨hgrows, hsession⟩
    have hsupports := supports_extend ((HasPool.pool later).tools bridge) hsession
    exact ⟨hgrows.trans hsupports.grows, hsupports.states, hsupports.transitions⟩
  . cases h

end Tools

theorem HatRegistry.isClosed_standard {E : Extension} {σ : Type} [HasPool σ] :
    (standard : HatRegistry E σ).IsClosed := by
  intro name make state config hat hget hmake
  unfold standard at hget
  rw [Table.get?_insert] at hget
  split at hget
  . injection hget with hget
    subst hget
    unfold Tools.maker at hmake
    split at hmake
    . injection hmake with hmake
      subst hmake
      exact Tools.isClosed_hat state none
    . split at hmake
      . injection hmake with hmake
        subst hmake
        exact Tools.isClosed_hat state _
      . cases hmake
  . rw [get?_builtin] at hget
    split at hget
    . injection hget with hget
      subst hget
      injection hmake with hmake
      subst hmake
      exact Echo.isClosed_hat state
    . cases hget

/-! ## Composing -/

namespace Composition

variable {E : Extension} {σ : Type} {context : Context E} {machine : Machine}

def addedStates (c : Composition E) (machine : Machine) : List State :=
  c.machine.states.drop machine.states.length

def addedTransitions (c : Composition E) (machine : Machine) : List Transition :=
  c.machine.transitions.drop machine.transitions.length

/-- What hats have added to the machine is registered, and they have taken nothing away. -/
structure Closed (context : Context E) (machine : Machine) (c : Composition E) : Prop where
  grows : context.Grows c.context
  states : c.machine.states.map State.entry
    = machine.states.map State.entry ++ (c.applied.flatMap (·.fragment.states)).map State.entry
  transitions : c.machine.transitions
    = machine.transitions ++ c.applied.flatMap (·.fragment.transitions)
  supplies : ∀ s ∈ c.applied.flatMap (·.fragment.states), c.context.Supplies s.entry
  provides : ∀ t ∈ c.applied.flatMap (·.fragment.transitions), c.context.Provides t

theorem Closed.start (context : Context E) (machine : Machine) :
    Closed context machine (start context machine) := by
  refine ⟨.refl context, ?_, ?_, ?_, ?_⟩
  . simp [Composition.start]
  . simp [Composition.start]
  . simp [Composition.start]
  . simp [Composition.start]

theorem Closed.add {c : Composition E} {next : Context E} {fragment : Fragment} (closed : Closed context machine c)
    (d : Declaration) (kind : HatKind) (supports : Hat.Supports c.context next fragment) :
    Closed context machine (c.add d kind next fragment) := by
  rcases fragment.mergeInto_frame c.machine with ⟨hstates, htransitions⟩
  have happlied : (c.add d kind next fragment).applied = c.applied ++ [⟨d.hat, d.state, kind, fragment⟩] := rfl
  have hmachine : (c.add d kind next fragment).machine = (fragment.mergeInto c.machine).1 := rfl
  have hcontext : (c.add d kind next fragment).context = next := rfl
  refine ⟨?_, ?_, ?_, ?_, ?_⟩
  . rw [hcontext]
    exact closed.grows.trans supports.grows
  . rw [hmachine, hstates, closed.states, happlied]
    simp
  . rw [hmachine, htransitions, closed.transitions, happlied]
    simp
  . intro s hs
    rw [happlied, List.flatMap_append, List.mem_append] at hs
    rw [hcontext]
    rcases hs with hs | hs
    . exact supports.grows.supplies (closed.supplies s hs)
    . exact supports.states s (by simpa using hs)
  . intro t ht
    rw [happlied, List.flatMap_append, List.mem_append] at ht
    rw [hcontext]
    rcases ht with ht | ht
    . exact supports.grows.provides (closed.provides t ht)
    . exact supports.transitions t (by simpa using ht)

theorem closed_applyAll {registry : HatRegistry E σ} (hr : registry.IsClosed) {ds : List Declaration}
    {c result : Composition E} {world after : σ} (closed : Closed context machine c)
    (h : applyAll registry ds c world = (.ok result, after)) : Closed context machine result := by
  induction ds generalizing c world with
  | nil =>
    simp only [applyAll, Prod.mk.injEq, Except.ok.injEq] at h
    rw [← h.1]
    exact closed
  | cons d rest ih =>
    rcases cases_of_applyAll h with ⟨_, h⟩ | ⟨make, hat, next, fragment, between, hget, hmake, happly, h⟩
    . -- The hat is unknown, which leaves a warning only.
      apply ih _ h
      exact ⟨closed.grows, closed.states, closed.transitions, closed.supplies, closed.provides⟩
    . apply ih _ h
      exact closed.add d hat.kind (hr d.hat make d.state d.config hat hget hmake _ _ _ _ _ happly)

theorem Closed.addedTransitions_eq {c : Composition E} (closed : Closed context machine c) :
    c.addedTransitions machine = c.applied.flatMap (·.fragment.transitions) := by
  unfold addedTransitions
  rw [closed.transitions, List.drop_left]

theorem Closed.map_entry_addedStates {c : Composition E} (closed : Closed context machine c) :
    (c.addedStates machine).map State.entry = (c.applied.flatMap (·.fragment.states)).map State.entry := by
  unfold addedStates
  rw [List.map_drop, closed.states, List.drop_left' (by simp)]

theorem Closed.supplies_added {c : Composition E} (closed : Closed context machine c) {s : State}
    (hs : s ∈ c.addedStates machine) : c.context.Supplies s.entry := by
  have hs := List.mem_map_of_mem (f := State.entry) hs
  rw [closed.map_entry_addedStates, List.mem_map] at hs
  rcases hs with ⟨other, hother, heq⟩
  rw [← heq]
  exact closed.supplies other hother

theorem Closed.declared {c : Composition E} (closed : Closed context machine c) {s : State}
    (hs : s ∈ c.machine.states) (hunsupplied : ¬ c.context.Supplies s.entry) :
    ∃ t ∈ machine.states, t.entry = s.entry := by
  have hs := List.mem_map_of_mem (f := State.entry) hs
  rw [closed.states, List.mem_append] at hs
  rcases hs with hs | hs
  . exact List.mem_map.1 hs
  . rcases List.mem_map.1 hs with ⟨other, hother, heq⟩
    rw [← heq] at hunsupplied
    exact absurd (closed.supplies other hother) hunsupplied

end Composition

/-! ## Starting -/

namespace Loop

variable {E : Extension} {context : Context E} {error : RunError}

theorem actionProblem?_eq_some {states : List State} (h : actionProblem? context states = some error) :
    ∃ s ∈ states, (s.action = none ∧ error = .noAction s.id)
      ∨ ∃ name, s.action = some name ∧ context.hasAction name = false
        ∧ error = .unknownAction s.id name := by
  induction states with
  | nil => cases h
  | cons s rest ih =>
    unfold actionProblem? at h
    split at h
    . next hnone =>
      injection h with h
      exact ⟨s, by simp, .inl ⟨hnone, h.symm⟩⟩
    . next name hname =>
      split at h
      . rcases ih h with ⟨t, ht, hproblem⟩
        exact ⟨t, List.mem_cons_of_mem _ ht, hproblem⟩
      . next hmissing =>
        injection h with h
        exact ⟨s, by simp, .inr ⟨name, hname, by simpa using hmissing, h.symm⟩⟩

theorem start_eq_error {machine : Machine} {seed : Trail} {config : RunConfig}
    (h : start machine context seed config = .error error) :
    (∃ errors, machine.check = .error errors ∧ error = .definition errors)
    ∨ actionProblem? context machine.states = some error := by
  unfold start at h
  split at h
  . next errors hcheck =>
    injection h with h
    exact .inl ⟨errors, hcheck, h.symm⟩
  . split at h
    . next other hproblem =>
      injection h with h
      exact .inr (h ▸ hproblem)
    . cases h

end Loop

end Turnstile
