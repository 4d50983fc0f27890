import Turnstile.Proofs.Hat.Closure

/-!
This module contains what hats promise to the runs of composed machines: the schemas of the transitions that
they have added are provided whenever an event is held against them, as long as actions leave in the context
what was there at the start.
-/

namespace Turnstile

/-- Is the error that a schema was not provided? -/
def RunError.isOfProvider : RunError → Bool
  | .unknownProvider _ _ | .provider _ _ => true
  | _ => false

namespace Machine

variable {machine : Machine} {t : Transition}

/-- Each transition of a machine that was checked is found under its own identifier. -/
theorem transition?_of_mem (h : machine.check = .ok ()) (ht : t ∈ machine.transitions) :
    machine.transition? t.id = some t := by
  unfold transition?
  cases hfind : machine.transitions.find? (·.id = t.id) with
  | none =>
    rw [List.find?_eq_none] at hfind
    simpa using hfind t ht
  | some other =>
    have hid : other.id = t.id := by simpa using List.find?_some hfind
    have hother := List.mem_of_find?_eq_some hfind
    rw [List.inj_on_of_nodup_map (check_eq_ok_iff.1 h).transitions hother ht hid]

end Machine

namespace Context

variable {E : Extension} {c d e : Context E}

/-- Providers stay what they are, and where there is a session there still is one. -/
structure Retains (c d : Context E) : Prop where
  providers : ∀ key provider, c.provider? key = some provider → d.provider? key = some provider
  sessions : ∀ key, (c.session? key).isSome → (d.session? key).isSome

theorem Retains.refl (c : Context E) : Retains c c :=
  ⟨fun _ _ => id, fun _ => id⟩

theorem Retains.provides {t : Transition} (h : Retains c d) (ht : c.Provides t) : d.Provides t := by
  intro key hkey
  rcases ht key hkey with ⟨session, direction, hprovider, hsession⟩
  exact ⟨session, direction, h.providers _ _ hprovider, h.sessions _ hsession⟩

variable {σ : Type} [HasPool σ]

/-- The answer does not depend on whether the bridge of the session still runs. -/
theorem Serves.provide {key : String} (h : c.Serves key) (conduct : Conduct E σ) (t : Transition) :
    ∃ provider, c.provider? key = some provider
      ∧ ∀ world, ∃ schema, conduct.surroundings.provide world provider c t = .ok schema := by
  rcases h with ⟨session, direction, hprovider, hsession⟩
  refine ⟨_, hprovider, ?_⟩
  intro world
  rcases Option.isSome_iff_exists.1 hsession with ⟨found, hfound⟩
  show ∃ schema, Tools.provide (HasPool.pool world) c session direction = .ok schema
  unfold Tools.provide
  rw [hfound]
  exact ⟨_, rfl⟩

theorem Provides.schemaFor {t : Transition} (h : c.Provides t) (conduct : Conduct E σ) (world : σ) :
    ∃ schema, Loop.schemaFor (conduct.surroundings.provide world) c t = .ok schema := by
  unfold Loop.schemaFor
  split
  . next key hkey =>
    rcases (h key hkey).provide conduct t with ⟨provider, hprovider, hprovides⟩
    rcases hprovides world with ⟨schema, hschema⟩
    rw [hprovider]
    exact ⟨schema, by simp [hschema, Except.mapError]⟩
  . exact ⟨_, rfl⟩
  . exact ⟨_, rfl⟩

end Context

namespace Loop

variable {E : Extension} {provide : Provide E} {l : Loop E} {work : Work} {t : Transition} {error : RunError}

theorem isOfProvider_of_judge {failure : Failure} (ht : l.machine.transition? work.event.edge = some t)
    (hschema : ∃ schema, schemaFor provide l.context t = .ok schema)
    (h : l.judge provide work = .unusable failure error) : error.isOfProvider = false := by
  rcases hschema with ⟨schema, hschema⟩
  unfold judge at h
  simp only [ht, hschema] at h
  split at h
  . cases h
    rfl
  . split at h
    . cases h
    . cases h

theorem Barred.isOfProvider {machine : Machine} {context : Context E} {id : StateId}
    (h : Barred machine context id error) : error.isOfProvider = false := by
  cases h with
  | _ => rfl

end Loop

/-- Actions return contexts that retain a given one, and schemas come from the providers of the library. -/
def Move.Respects {E : Extension} {σ : Type} [HasPool σ] (conduct : Conduct E σ) (base : Context E) :
    Move E → Prop
  | .take provide => ∃ world, provide = conduct.surroundings.provide world
  | .settle (.ok (next, _)) => base.Retains next
  | _ => True

namespace Chronicle

variable {E : Extension} {σ : Type} [HasPool σ] {conduct : Conduct E σ} {base : Context E}
  {machine : Machine} {seed : Trail} {c d : Chronicle E} {move : Move E}

/-- The context has kept what was in a given one, and had it whenever an event was heard. -/
structure Retained (conduct : Conduct E σ) (base : Context E) (c : Chronicle E) : Prop where
  context : base.Retains c.loop.context
  heard : ∀ x ∈ c.heard, base.Retains x.loop.context
    ∧ ∃ world, x.provide = conduct.surroundings.provide world

theorem Retained.preserve (retained : Retained conduct base c) (course : Course c move d)
    (hmove : move.Respects conduct base) : Retained conduct base d := by
  cases course with
  | hear provide hphase hqueue turn =>
    refine ⟨retained.context, ?_⟩
    intro x hx
    rw [hear, List.mem_append, List.mem_singleton] at hx
    rcases hx with hx | rfl
    . exact retained.heard x hx
    . exact ⟨retained.context, hmove⟩
  | settle next step hphase => exact ⟨hmove, retained.heard⟩
  | _ => exact ⟨retained.context, retained.heard⟩

theorem Retained.playAll {moves : List (Move E)} (retained : Retained conduct base c)
    (hmoves : ∀ move ∈ moves, move.Respects conduct base) : Retained conduct base (c.playAll moves) := by
  induction moves generalizing c with
  | nil => exact retained
  | cons move rest ih =>
    rw [List.forall_mem_cons] at hmoves
    exact ih (retained.preserve (play_course c move) hmoves.1) hmoves.2

theorem Retained.isOfProvider {t : Transition} {x : Hearing E} {failure : Failure} {error : RunError}
    (retained : Retained conduct base c) (kept : Kept machine seed c) (hcheck : machine.check = .ok ())
    (ht : t ∈ machine.transitions) (hprovides : base.Provides t) (hx : x ∈ c.heard)
    (hedge : t.id = x.work.event.edge) (hverdict : x.verdict = .unusable failure error) :
    error.isOfProvider = false := by
  rcases retained.heard x hx with ⟨hretains, world, hprovide⟩
  have hfound := Machine.transition?_of_mem hcheck ht
  rw [hedge, ← kept.heard_machine x hx] at hfound
  apply Loop.isOfProvider_of_judge hfound _ hverdict
  rw [hprovide]
  exact (hretains.provides hprovides).schemaFor conduct world

/-- A run that has failed since a schema was not provided has done so over the event that it heard last. -/
theorem Concluded.last_of_isOfProvider {error : RunError} (guarded : Guarded machine c)
    (concluded : Concluded c) (h : c.loop.result? = some (.error error))
    (herror : error.isOfProvider = true) :
    ∃ x failure, c.heard.getLast? = some x ∧ x.verdict = .unusable failure error := by
  rcases concluded.result_cases guarded h with ⟨other, haction⟩ | ⟨x, hx, hends⟩
  . cases haction
    cases herror
  . cases hends with
    | barred hv hend hb =>
      rw [hb.isOfProvider] at herror
      cases herror
    | unusable hv => exact ⟨x, _, hx.last, hv⟩
    | giveUp hv => cases herror

end Chronicle

namespace Composition

variable {E : Extension} {σ : Type} [HasPool σ] {context : Context E} {machine : Machine} {world after : σ}
  {c : Composition E}

/-- A composed machine does not start because of an error in it or of a state that was there before. -/
theorem Closed.start_eq_error (closed : Closed context machine c) {seed : Trail} {config : RunConfig}
    {error : RunError} (h : Loop.start c.machine c.context seed config = .error error) :
    (∃ errors, error = .definition errors)
    ∨ ∃ s ∈ machine.states, (s.action = none ∧ error = .noAction s.id)
        ∨ ∃ name, s.action = some name ∧ c.context.hasAction name = false
          ∧ error = .unknownAction s.id name := by
  rcases Loop.start_eq_error h with ⟨errors, _, rfl⟩ | hproblem
  . exact .inl ⟨errors, rfl⟩
  . right
    rcases Loop.actionProblem?_eq_some hproblem with ⟨s, hs, hcases⟩
    have hunsupplied : ¬ c.context.Supplies s.entry := by
      intro ⟨name, hname, haction⟩
      have hname : s.action = some name := hname
      rcases hcases with ⟨hnone, _⟩ | ⟨other, hother, hmissing, _⟩
      . simp [hnone] at hname
      . rw [hother] at hname
        injection hname with hname
        simp [← hname, hmissing] at haction
    rcases closed.declared hs hunsupplied with ⟨t, ht, hentry⟩
    injection hentry with hid haction
    refine ⟨t, ht, ?_⟩
    rw [hid, haction]
    exact hcases

/--
Whenever composing with the hats of the library succeeds, the actions of all states that were added are
registered, the schemas of all transitions that were added are provided, and nothing that was registered
before is missing. The composed machine therefore starts unless there is an error in the machine or one of its
own states has no action; and in no run in which actions leave the context as they get it, apart from what
they add, does an event along an added transition find that its schema is not provided.
-/
theorem added_registered (conduct : Conduct E σ)
    (h : applyHats .standard context machine world = (.ok c, after)) :
    (c.machine.transitions = machine.transitions ++ c.addedTransitions machine
      ∧ c.machine.states.map State.entry
        = machine.states.map State.entry ++ (c.addedStates machine).map State.entry)
    ∧ (∀ s ∈ c.addedStates machine, ∃ name, s.action = some name ∧ c.context.hasAction name = true)
    ∧ (∀ t ∈ c.addedTransitions machine, ∀ key, t.schema = .provided key →
        ∃ provider, c.context.provider? key = some provider
          ∧ ∀ later, ∃ schema, conduct.surroundings.provide later provider c.context t = .ok schema)
    ∧ (∀ name, context.hasAction name = true → c.context.hasAction name = true)
    ∧ (∀ key, (context.provider? key).isSome → (c.context.provider? key).isSome)
    ∧ (∀ seed config error, Loop.start c.machine c.context seed config = .error error →
        (∃ errors, error = .definition errors)
        ∨ ∃ s ∈ machine.states, (s.action = none ∧ error = .noAction s.id)
            ∨ ∃ name, s.action = some name ∧ c.context.hasAction name = false
              ∧ error = .unknownAction s.id name)
    ∧ ∀ seed config l (moves : List (Move E)), Loop.start c.machine c.context seed config = .ok l →
        (∀ move ∈ moves, move.Respects conduct c.context) →
        let r := (Chronicle.begin l).playAll moves
        (∀ x ∈ r.heard, x.work.event.edge ∈ (c.addedTransitions machine).map (·.id) →
          ∀ failure error, x.verdict = .unusable failure error → error.isOfProvider = false)
        ∧ ∀ error, r.loop.result? = some (.error error) → error.isOfProvider = true →
            ∃ x, r.heard.getLast? = some x
              ∧ x.work.event.edge ∉ (c.addedTransitions machine).map (·.id) := by
  have closed : Closed context machine c :=
    closed_applyAll HatRegistry.isClosed_standard (.start context machine) h
  have htransitions := closed.transitions
  rw [← closed.addedTransitions_eq] at htransitions
  have hstates := closed.states
  rw [← closed.map_entry_addedStates] at hstates
  have hprovides : ∀ t ∈ c.addedTransitions machine, c.context.Provides t := by
    rw [closed.addedTransitions_eq]
    exact closed.provides
  refine ⟨⟨htransitions, hstates⟩, fun s hs => closed.supplies_added hs, ?_, closed.grows.actions,
    closed.grows.providers, fun seed config error herror => closed.start_eq_error herror, ?_⟩
  . intro t ht key hkey
    exact (hprovides t ht key hkey).provide conduct t
  . intro seed config l moves hstart hmoves r
    have kept : Chronicle.Kept c.machine seed r := Chronicle.kept_playAll hstart moves
    have guarded : Chronicle.Guarded c.machine r := Chronicle.guarded_playAll hstart moves
    have concluded : Chronicle.Concluded r := Chronicle.concluded_playAll hstart moves
    have retained : Chronicle.Retained conduct c.context r := by
      apply Chronicle.Retained.playAll _ hmoves
      rw [Loop.start_eq hstart]
      constructor
      . exact .refl c.context
      . intro x hx
        cases hx
    have hheard : ∀ x ∈ r.heard, x.work.event.edge ∈ (c.addedTransitions machine).map (·.id) →
        ∀ failure error, x.verdict = .unusable failure error → error.isOfProvider = false := by
      intro x hx hedge failure error hverdict
      rcases List.mem_map.1 hedge with ⟨t, ht, hid⟩
      have hmem : t ∈ c.machine.transitions := by
        rw [htransitions]
        exact List.mem_append_right _ ht
      exact retained.isOfProvider kept (Loop.check_of_start hstart) hmem (hprovides t ht) hx hid hverdict
    refine ⟨hheard, ?_⟩
    intro error hresult herror
    rcases concluded.last_of_isOfProvider guarded hresult herror with ⟨x, failure, hlast, hverdict⟩
    refine ⟨x, hlast, ?_⟩
    intro hedge
    have := hheard x (List.mem_of_getLast? hlast) hedge failure error hverdict
    rw [this] at herror
    cases herror

end Composition

/-!
A state that wears one hat of its own and one that the machine puts on it, with a session that is already in the
context. Its action sends a message to the tools.
-/

namespace Sample

def dressed : Machine :=
  { Machine.new "gate" "3" with hats := .ofList [(Tools.name, [⟨"work"⟩])] }
    |>.addState { State.new ⟨"work"⟩ with action := some "act", hats := [.bare Echo.name] }
    |>.addTransition (.new .start ⟨"work"⟩)
    |>.addTransition (.new ⟨"work"⟩ .final)

def equipped : Context extension :=
  context.setHatState (Tools.sessionKey ⟨"work"⟩) (.session ⟨⟨"work"⟩, ⟨0⟩⟩)

def composed : Except HatError (Composition extension) × Pool :=
  applyHats .standard equipped dressed (.ofPrograms fun _ _ => none)

def conduct : Conduct extension Pool where
  act _ loop _ pool := (⟨[], .zero, .returned (.ok (loop.context, .wait))⟩, pool)
  provide _ _ _ := .error ⟨"no schema"⟩
  release _ pool := (⟨.zero, .completed⟩, pool)

def asking : Event := .new ⟨⟨"work"⟩, Tools.stateOf ⟨"work"⟩⟩ .null

def askingMoves (c : Composition extension) : List (Move extension) :=
  [.arrive entering, .take (conduct.surroundings.provide composed.2),
    .settle (.ok (c.context, .emit asking)), .emit, .emit,
    .take (conduct.surroundings.provide composed.2)]

end Sample

namespace Composition

theorem added_registered_work :
    ∃ c, Sample.composed.1 = .ok c
      ∧ (c.addedTransitions Sample.dressed).map (·.schema)
        = [.any, .any, .provided "work-request", .provided "work-response"]
      ∧ (∀ s ∈ c.addedStates Sample.dressed, ∃ name, s.action = some name ∧ c.context.hasAction name = true)
      ∧ ∃ l, Loop.start c.machine c.context [] .standard = .ok l
        ∧ ((Chronicle.begin l).playAll (Sample.askingMoves c)).heard.map (·.work.event)
          = [Sample.entering, Sample.asking]
        ∧ ∀ x ∈ ((Chronicle.begin l).playAll (Sample.askingMoves c)).heard,
            x.work.event = Sample.asking → ∀ failure error, x.verdict = .unusable failure error →
              error.isOfProvider = false := by
  have hcomposed : ∃ c after, Sample.composed = (.ok c, after)
      ∧ (c.addedTransitions Sample.dressed).map (·.schema)
        = [.any, .any, .provided "work-request", .provided "work-response"]
      ∧ Sample.asking.edge ∈ (c.addedTransitions Sample.dressed).map (·.id)
      ∧ ∃ l, Loop.start c.machine c.context [] .standard = .ok l
        ∧ ((Chronicle.begin l).playAll (Sample.askingMoves c)).heard.map (·.work.event)
          = [Sample.entering, Sample.asking] := by
    refine ⟨_, _, rfl, ?_, ?_, _, rfl, ?_⟩
    . decide +kernel
    . decide +kernel
    . decide +kernel
  rcases hcomposed with ⟨c, after, h, hschemas, hasking, l, hstart, hheard⟩
  rcases added_registered Sample.conduct h with ⟨_, hstates, _, _, _, _, hruns⟩
  refine ⟨c, congrArg Prod.fst h, hschemas, hstates, l, hstart, hheard, ?_⟩
  intro x hx hevent failure error
  have hmoves : ∀ move ∈ Sample.askingMoves c, move.Respects Sample.conduct c.context := by
    simp [Sample.askingMoves, Move.Respects, Context.Retains.refl]
  apply (hruns [] .standard l (Sample.askingMoves c) hstart hmoves).1 x hx
  rw [hevent]
  exact hasking

end Composition

end Turnstile
