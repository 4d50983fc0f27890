import Turnstile.Proofs.Bridge.Prompt
import Turnstile.Proofs.Bridge.Refusal
import Turnstile.Proofs.Hat.Closure
import Turnstile.Proofs.Hat.Fitting

/-!
This module contains the sessions of tools over any number of compositions with one context. The hat `mcp`
starts a bridge only for a state without a session, and puts the session into the context together with a stop
hook of its own. So each state has one session and one hook for it, whatever hats are put on after that, and
running the stop hooks closes the channel of each bridge that was started and ends its process.
-/

namespace Turnstile

section

variable {E : Extension} {σ : Type}

def Fitting.isTool (f : Fitting E σ) : Bool :=
  f.declaration.hat = Tools.name

end

/-! ## Bridges that have ended -/

namespace Bridge

/-- The channel is closed, and the process of the server is no longer there. -/
structure Ended (b : Bridge) : Prop where
  channel : b.link.channel.isAlive = false
  process : b.link.session.process.exit.isSome

variable {b : Bridge}

theorem Ended.of_rests {link : Link} (h : b.Ended) (hl : b.link.Rests link) : { b with link }.Ended := by
  refine ⟨hl.isAlive, ?_⟩
  show link.session.process.exit.isSome
  rw [hl.session]
  exact h.process

theorem Ended.callAll (h : b.Ended) (calls : ToolCalls) (limit : Duration) : (b.callAll calls limit).2.Ended := by
  by_cases hc : calls = .many []
  . subst hc
    exact h
  . exact h.of_rests (Link.hold_callAll_of_not_isAlive h.channel hc limit b.config.cancelOnTimeout).2

theorem Ended.drain (h : b.Ended) : b.drain.2.Ended :=
  ⟨h.channel, h.process⟩

theorem isShut_shutdown (b : Bridge) : b.shutdown.isShut = true := by
  unfold shutdown
  split
  . assumption
  . rfl

theorem ended_shutdown (h : b.isShut = true → b.Ended) : b.shutdown.Ended := by
  unfold shutdown
  split
  . next hs => exact h hs
  . exact ⟨rfl, b.link.isSome_exit_close⟩

end Bridge

section

variable {E : Extension} {σ : Type} [HasPool σ]

/-! ## Worlds with bridges -/

/-- What is put into a world as its pool is what is found there. -/
class LawfulPool (σ : Type) [HasPool σ] : Prop where
  pool_setPool : ∀ (world : σ) (pool : Pool), HasPool.pool (HasPool.setPool world pool) = pool

instance : LawfulPool Pool where
  pool_setPool _ _ := rfl

/-- The bridge is in its place, and it has ended if it is shut. -/
def Held (world : σ) (ref : BridgeRef) : Prop :=
  ∃ b, (HasPool.pool world).bridge? ref = some b ∧ (b.isShut = true → b.Ended)

/-- The bridge is in its place, it is shut, and it has ended. -/
def Shut (world : σ) (ref : BridgeRef) : Prop :=
  ∃ b, (HasPool.pool world).bridge? ref = some b ∧ b.isShut = true ∧ b.Ended

/-- Bridges may have come in between the two worlds. None has gone, and none was shut that has not ended. -/
def Later (world later : σ) : Prop :=
  ∀ ref, Held world ref → Held later ref

theorem Later.refl (w : σ) : Later w w :=
  fun _ h => h

theorem Later.trans {u v w : σ} (h : Later u v) (h' : Later v w) : Later u w :=
  fun ref hu => h' ref (h ref hu)

theorem Held.index_lt {world : σ} (h : Held world ref) : ref.index < (HasPool.pool world).bridges.length := by
  rcases h with ⟨_, hb, _⟩
  exact (List.getElem?_eq_some_iff.mp hb).1

theorem Shut.held {world : σ} (h : Shut world ref) : Held world ref := by
  rcases h with ⟨b, hb, _, he⟩
  exact ⟨b, hb, fun _ => he⟩

/-- A bridge is not shut when it starts. -/
theorem Bridge.isShut_start {programs : Programs} {id : BridgeId} {config : BridgeConfig}
    (h : Bridge.start programs id config = .ok b) : b.isShut = false := by
  cases hs : config.spawn programs with
  | error error =>
    unfold start at h
    rw [hs] at h
    cases h
  | ok spawned =>
    rw [start_eq hs] at h
    rcases map_eq_ok h with ⟨introduced, _, hb⟩
    rw [← hb]

theorem Pool.of_start {pool next : Pool} {config : BridgeConfig} {ref : BridgeRef}
    (h : pool.start config = (.ok ref, next)) :
    ref.index = pool.bridges.length ∧ ∃ b, next.bridges = pool.bridges ++ [b] ∧ b.isShut = false := by
  unfold start at h
  dsimp only at h
  split at h
  . next b hb =>
    cases h
    exact ⟨rfl, b, rfl, Bridge.isShut_start hb⟩
  . cases h

section

variable {world later : σ} {config : BridgeConfig} {ref : BridgeRef}

theorem held_of_start (h : (HasPool.pool world).start config = (.ok ref, HasPool.pool later)) : Held later ref := by
  rcases Pool.of_start h with ⟨hindex, b, hbridges, hshut⟩
  refine ⟨b, ?_, by simp [hshut]⟩
  unfold Pool.bridge?
  rw [hbridges, hindex, List.getElem?_concat_length]

theorem later_of_start (h : (HasPool.pool world).start config = (.ok ref, HasPool.pool later)) : Later world later := by
  rcases Pool.of_start h with ⟨_, b, hbridges, _⟩
  intro other ⟨held, hb, he⟩
  refine ⟨held, ?_, he⟩
  unfold Pool.bridge? at hb ⊢
  rw [hbridges, List.getElem?_append_left (List.getElem?_eq_some_iff.mp hb).1, hb]

end

/-- Was a bridge started? -/
def Fitting.starts (f : Fitting E σ) : Bool :=
  (HasPool.pool f.world).bridges.length < (HasPool.pool f.after).bridges.length

/-- Machines are composed one after the other with one context. The world may go on in between. -/
inductive Passes (registry : HatRegistry E σ) : Context E → σ → List (Fitting E σ) → Context E → σ → Prop where
  | done (h : Later w v) : Passes registry c w [] c v
  | pass (machine : Machine) (hl : Later w u) (h : applyHats registry c machine u = (.ok composed, x))
    (rest : Passes registry composed.context x fs d v) :
    Passes registry c w (fittings registry machine.declarations c u ++ fs) d v

/-- Each hat finds the context that the one before it has left, in a later world. -/
inductive Chain (registry : HatRegistry E σ) : Context E → σ → List (Fitting E σ) → Context E → σ → Prop where
  | nil (h : Later w v) : Chain registry c w [] c v
  | cons (f : Fitting E σ) (hl : Later w f.world) (hm : f.Made registry)
    (rest : Chain registry f.next f.after fs d v) : Chain registry f.context w (f :: fs) d v

variable {registry : HatRegistry E σ} {c d e : Context E} {u v w : σ} {fs gs : List (Fitting E σ)}

theorem Chain.later (hl : Later u w) (h : Chain registry c w fs d v) : Chain registry c u fs d v := by
  cases h with
  | nil h => exact .nil (hl.trans h)
  | cons f h hm rest => exact .cons f (hl.trans h) hm rest

theorem Chain.append (h : Chain registry c u fs d v) (h' : Chain registry d v gs e w) :
    Chain registry c u (fs ++ gs) e w := by
  induction h with
  | nil hl => exact h'.later hl
  | cons f hl hm _ ih => exact .cons f hl hm (ih h')

theorem chain_fittings {ds : List Declaration} {composed result : Composition E}
    (h : Composition.applyAll registry ds composed w = (.ok result, v)) :
    Chain registry composed.context w (fittings registry ds composed.context w) result.context v := by
  induction ds generalizing composed w with
  | nil =>
    simp only [Composition.applyAll, Prod.mk.injEq, Except.ok.injEq] at h
    rw [← h.1, ← h.2]
    exact .nil (.refl w)
  | cons d rest ih =>
    rcases cases_of_applyAll h with ⟨hget, h⟩ | ⟨make, made, next, fragment, between, hget, hmake, happly, h⟩
    . rw [fittings_of_unknown hget]
      have hrest := ih h
      exact hrest
    . rw [fittings_of_apply hget hmake happly]
      exact .cons ⟨d, composed.context, w, next, between, fragment⟩ (.refl w) ⟨make, made, hget, hmake, happly⟩
        (ih h)

theorem Passes.chain (h : Passes registry c w fs d v) : Chain registry c w fs d v := by
  induction h with
  | done h => exact .nil h
  | pass machine hl h _ ih => exact (Chain.later hl (chain_fittings h)).append ih

end

/-! ## The sessions of a context -/

namespace Tools

variable {E : Extension} {σ : Type}

def hookName (state : StateId) : String :=
  s!"{name}:{state}"

theorem eq_of_toString_eq {s t : StateId} (h : toString s = toString t) : s = t := by
  cases s
  cases t
  exact congrArg StateId.mk h

theorem sessionKey_inj {s t : StateId} : sessionKey s = sessionKey t ↔ s = t := by
  constructor
  . intro h
    apply eq_of_toString_eq
    simpa [sessionKey] using h
  . exact congrArg sessionKey

theorem hookName_inj {s t : StateId} : hookName s = hookName t ↔ s = t := by
  constructor
  . intro h
    apply eq_of_toString_eq
    simpa [hookName] using h
  . exact congrArg hookName

/-- The stop hooks with the name that the hat gives to the hook of a state. -/
def hooksOf (c : Context E) (s : StateId) : List (StopHook E) :=
  c.stopHooks.filter (·.name = hookName s)

/-- The hook that ends a session. -/
def hookFor (s : StateId) (session : ToolSession) : StopHook E :=
  ⟨hookName s, .bridge session.bridge⟩

theorem session?_keep (c : Context E) (s t : StateId) (bridge : BridgeRef) :
    (keep c s bridge).session? (sessionKey t) =
      if t = s then some ⟨s, bridge⟩ else c.session? (sessionKey t) := by
  show ((c.setHatState (sessionKey s) (.session ⟨s, bridge⟩)).session? (sessionKey t)) = _
  unfold Context.session?
  simp only [Context.setHatState, Table.get?_insert, sessionKey_inj]
  by_cases hs : t = s
  . rw [if_pos hs, if_pos hs]
  . rw [if_neg hs, if_neg hs]

theorem hooksOf_keep (c : Context E) (s t : StateId) (bridge : BridgeRef) :
    hooksOf (keep c s bridge) t =
      hooksOf c t ++ if t = s then [hookFor s ⟨s, bridge⟩] else [] := by
  have hn : (hookFor s ⟨s, bridge⟩ : StopHook E).name = hookName t ↔ t = s := hookName_inj.trans eq_comm
  show hooksOf (c.addStopHook (hookFor s ⟨s, bridge⟩)) t = _
  unfold hooksOf Context.addStopHook
  rw [List.filter_append, List.filter_singleton]
  simp only [hn, Bool.cond_decide]

section

variable [HasPool σ] {c : Context E} {s : StateId} {world : σ}

/-- The session that is there is used, whatever the configuration. -/
theorem apply_reuse (hs : c.session? (sessionKey s) = some session) (config : Option BridgeConfig) :
    (hat s config).apply c world =
      (.ok (extend c s, fragment s ((HasPool.pool world).tools session.bridge)), world) := by
  simp only [hat, openSession, hs]

theorem apply_start {config : BridgeConfig} (hs : c.session? (sessionKey s) = none)
    (hb : (HasPool.pool world).start config = (.ok bridge, pool)) :
    (hat s (some config)).apply c world =
      (.ok (extend (keep c s bridge) s, fragment s ((HasPool.pool (HasPool.setPool world pool)).tools bridge)),
        HasPool.setPool world pool) := by
  simp only [hat, openSession, hs, hb]

end

/-- Sessions and their hooks are the same in both contexts. -/
structure Alike (c d : Context E) : Prop where
  sessions : ∀ s, d.session? (sessionKey s) = c.session? (sessionKey s)
  hooks : ∀ s, hooksOf d s = hooksOf c s

theorem Alike.refl (c : Context E) : Alike c c :=
  ⟨fun _ => rfl, fun _ => rfl⟩

theorem alike_extend (c : Context E) (s : StateId) : Alike c (extend c s) :=
  ⟨fun _ => rfl, fun _ => rfl⟩

end Tools

open Tools

/-- The hat leaves alone what belongs to sessions, and no bridge goes away. -/
def Hat.SparesTools {E : Extension} {σ : Type} [HasPool σ] (hat : Hat E σ) : Prop :=
  ∀ context world next fragment after, hat.apply context world = (.ok (next, fragment), after) →
    Alike context next ∧ Later world after

/-- The registry has the hat for tools, and no other hat has to do with sessions. -/
structure HatRegistry.EquipsTools {E : Extension} {σ : Type} [HasPool σ] (registry : HatRegistry E σ) :
    Prop where
  tools : registry.get? Tools.name = some maker
  others : ∀ hat make state config made, hat ≠ Tools.name → registry.get? hat = some make →
    make state config = .ok made → made.SparesTools

theorem Echo.sparesTools_hat {E : Extension} {σ : Type} [HasPool σ] (state : StateId) :
    (hat state : Hat E σ).SparesTools := by
  intro context world next fragment after h
  simp only [hat, Prod.mk.injEq, Except.ok.injEq] at h
  rcases h with ⟨⟨rfl, rfl⟩, rfl⟩
  refine ⟨?_, .refl world⟩
  unfold extend
  split
  . exact .refl context
  . exact ⟨fun _ => rfl, fun _ => rfl⟩

theorem HatRegistry.equipsTools_standard {E : Extension} {σ : Type} [HasPool σ] :
    (standard : HatRegistry E σ).EquipsTools where
  tools := by
    unfold standard
    rw [Table.get?_insert, if_pos rfl]
  others := by
    intro hat make state config made hn hget hmake
    unfold standard at hget
    rw [Table.get?_insert, if_neg hn, get?_builtin] at hget
    split at hget
    . cases hget
      cases hmake
      exact Echo.sparesTools_hat state
    . cases hget

/-! ## What putting on a hat does to the sessions -/

namespace Fitting

section

variable {E : Extension} {σ : Type} [HasPool σ] {f : Fitting E σ}

/-- The hat for tools finds a session, or starts a bridge for a new one. Other hats have nothing to do with it. -/
inductive Ways (f : Fitting E σ) : Prop where
  | spare (ht : f.isTool = false) (ha : Alike f.context f.next) (hl : Later f.world f.after)
  | reuse (session : ToolSession) (ht : f.isTool = true)
    (hs : f.context.session? (sessionKey f.state) = some session)
    (hn : f.next = extend f.context f.state) (ha : f.after = f.world)
    (hf : f.fragment = Tools.fragment f.state ((HasPool.pool f.after).tools session.bridge))
  | start (config : BridgeConfig) (bridge : BridgeRef) (ht : f.isTool = true)
    (hs : f.context.session? (sessionKey f.state) = none)
    (hb : (HasPool.pool f.world).start config = (.ok bridge, HasPool.pool f.after))
    (hn : f.next = extend (keep f.context f.state bridge) f.state)
    (hf : f.fragment = Tools.fragment f.state ((HasPool.pool f.after).tools bridge))

theorem ways_of_apply [LawfulPool σ] {config : Option BridgeConfig} (ht : f.isTool = true)
    (h : (Tools.hat f.state config).apply f.context f.world = (.ok (f.next, f.fragment), f.after)) : f.Ways := by
  simp only [Tools.hat] at h
  split at h
  . next opened bridge later hopen =>
    simp only [Prod.mk.injEq, Except.ok.injEq] at h
    rcases h with ⟨⟨hn, hf⟩, rfl⟩
    unfold openSession at hopen
    split at hopen
    . next session hs =>
      simp only [Prod.mk.injEq, Except.ok.injEq] at hopen
      rcases hopen with ⟨⟨rfl, rfl⟩, ha⟩
      exact .reuse session ht hs hn.symm ha.symm hf.symm
    . cases hopen
    . next config hs =>
      dsimp only at hopen
      split at hopen
      . next started hstart =>
        simp only [Prod.mk.injEq, Except.ok.injEq] at hopen
        rcases hopen with ⟨⟨rfl, rfl⟩, ha⟩
        refine .start config started ht hs ?_ hn.symm hf.symm
        rw [← ha, LawfulPool.pool_setPool, ← hstart]
      . cases hopen
  . cases h

theorem Made.ways [LawfulPool σ] {registry : HatRegistry E σ} (hr : registry.EquipsTools)
    (h : f.Made registry) : f.Ways := by
  rcases h with ⟨make, made, hget, hmake, happly⟩
  by_cases ht : f.declaration.hat = Tools.name
  . have htool : f.isTool = true := decide_eq_true ht
    rw [ht, hr.tools] at hget
    cases hget
    unfold maker at hmake
    split at hmake
    . cases hmake
      exact ways_of_apply htool happly
    . split at hmake
      . cases hmake
        exact ways_of_apply htool happly
      . cases hmake
  . rcases hr.others _ _ _ _ _ ht hget hmake _ _ _ _ _ happly with ⟨ha, hl⟩
    exact .spare (decide_eq_false ht) ha hl

theorem Ways.starts_of_reuse (ha : f.after = f.world) : f.starts = false := by
  unfold starts
  rw [ha]
  simp

theorem Ways.starts_of_start {config : BridgeConfig} {bridge : BridgeRef}
    (hb : (HasPool.pool f.world).start config = (.ok bridge, HasPool.pool f.after)) : f.starts = true := by
  rcases Pool.of_start hb with ⟨_, _, hbridges, _⟩
  unfold starts
  rw [hbridges]
  simp

theorem Ways.later (h : f.Ways) : Later f.world f.after := by
  cases h with
  | spare _ _ hl => exact hl
  | reuse _ _ _ _ ha =>
    rw [ha]
    exact .refl _
  | start _ _ _ _ hb => exact later_of_start hb

/-- A session that is there stays there. -/
theorem Ways.session?_of_some (h : f.Ways) (hs : f.context.session? (sessionKey s) = some session) :
    f.next.session? (sessionKey s) = some session := by
  cases h with
  | spare _ ha => rw [ha.sessions, hs]
  | reuse _ _ _ hn =>
    rw [hn, (alike_extend _ _).sessions, hs]
  | start _ bridge _ hnone _ hn =>
    have hne : s ≠ f.state := by
      intro he
      rw [he, hnone] at hs
      cases hs
    rw [hn, (alike_extend _ _).sessions, session?_keep, if_neg hne, hs]

theorem Ways.session?_of_none (h : f.Ways) (hs : f.next.session? (sessionKey s) = none) :
    f.context.session? (sessionKey s) = none := by
  cases hc : f.context.session? (sessionKey s) with
  | none => rfl
  | some session =>
    rw [h.session?_of_some hc] at hs
    cases hs

/-- There is a new session only for a state for which a bridge was started. -/
theorem Ways.isSome_session?_iff (h : f.Ways) (s : StateId) :
    (f.next.session? (sessionKey s)).isSome ↔
      (f.context.session? (sessionKey s)).isSome ∨ (f.isTool && f.starts) = true ∧ s = f.state := by
  cases h with
  | spare ht ha => simp [ha.sessions, ht]
  | reuse _ _ _ hn ha =>
    rw [hn, (alike_extend _ _).sessions, starts_of_reuse ha]
    simp
  | start _ bridge ht _ hb hn =>
    rw [hn, (alike_extend _ _).sessions, session?_keep, ht, starts_of_start hb]
    by_cases he : s = f.state
    . simp [he]
    . simp [he]

/-- No bridge is started for a state that has a session. -/
theorem Ways.session?_of_starts (h : f.Ways) (hs : (f.isTool && f.starts) = true) :
    f.context.session? (sessionKey f.state) = none := by
  cases h with
  | spare ht =>
    rw [ht] at hs
    cases hs
  | reuse _ _ _ _ ha =>
    rw [starts_of_reuse ha, Bool.and_false] at hs
    cases hs
  | start _ _ _ hnone => exact hnone

end

end Fitting

/-! ## Sessions, hooks and bridges in step -/

section

variable {E : Extension} {σ : Type} [HasPool σ] {initial c d : Context E} {w v : σ}

/--
Each session of the context is one of its state, with a bridge of its own, and apart from the hooks that have
been there from the beginning there is one hook for each.
-/
structure InStep (initial c : Context E) (w : σ) : Prop where
  holds : ∀ s session, c.session? (sessionKey s) = some session →
    session.state = s ∧ Held w session.bridge
  apart : ∀ s t a b, c.session? (sessionKey s) = some a → c.session? (sessionKey t) = some b →
    a.bridge = b.bridge → s = t
  hooks : ∀ s, hooksOf c s = hooksOf initial s ++ (c.session? (sessionKey s)).toList.map (hookFor s)

theorem InStep.start (h : ∀ s, c.session? (sessionKey s) = none) (w : σ) : InStep c c w := by
  refine ⟨?_, ?_, ?_⟩
  . intro s session hs
    rw [h s] at hs
    cases hs
  . intro s t a b hs
    rw [h s] at hs
    cases hs
  . intro s
    rw [h s]
    simp

theorem InStep.alike (h : InStep initial c w) (ha : Alike c d) (hl : Later w v) : InStep initial d v := by
  refine ⟨?_, ?_, ?_⟩
  . intro s session hs
    rw [ha.sessions] at hs
    rcases h.holds s session hs with ⟨hstate, hheld⟩
    exact ⟨hstate, hl session.bridge hheld⟩
  . intro s t a b hs ht
    rw [ha.sessions] at hs ht
    exact h.apart s t a b hs ht
  . intro s
    rw [ha.hooks, ha.sessions, h.hooks]

theorem InStep.keep {s : StateId} {config : BridgeConfig} {bridge : BridgeRef} (h : InStep initial c w)
    (hs : c.session? (sessionKey s) = none)
    (hb : (HasPool.pool w).start config = (.ok bridge, HasPool.pool v)) :
    InStep initial (keep c s bridge) v := by
  -- The bridge is a new one, so that no session has it yet.
  have hnew : ∀ t session, c.session? (sessionKey t) = some session → session.bridge ≠ bridge := by
    intro t session ht he
    have hlt := (h.holds t session ht).2.index_lt
    rw [he, (Pool.of_start hb).1] at hlt
    exact Nat.lt_irrefl _ hlt
  refine ⟨?_, ?_, ?_⟩
  . intro t session ht
    rw [session?_keep] at ht
    split at ht
    . next he =>
      cases ht
      exact ⟨he.symm, held_of_start hb⟩
    . rcases h.holds t session ht with ⟨hstate, hheld⟩
      exact ⟨hstate, later_of_start hb session.bridge hheld⟩
  . intro t u a b ht hu he
    rw [session?_keep] at ht hu
    split at ht
    . next hts =>
      split at hu
      . next hus => rw [hts, hus]
      . cases ht
        exact absurd he.symm (hnew u b hu)
    . split at hu
      . cases hu
        exact absurd he (hnew t a ht)
      . exact h.apart t u a b ht hu he
  . intro t
    rw [hooksOf_keep, session?_keep, h.hooks]
    by_cases ht : t = s
    . rw [if_pos ht, if_pos ht, ht, hs]
      simp
    . rw [if_neg ht, if_neg ht, List.append_nil]

theorem InStep.step {f : Fitting E σ} (h : InStep initial f.context f.world) (hf : f.Ways) :
    InStep initial f.next f.after := by
  have hl := hf.later
  cases hf with
  | spare _ ha => exact h.alike ha hl
  | reuse _ _ _ hn =>
    rw [hn]
    exact h.alike (alike_extend _ _) hl
  | start _ _ _ hs hb hn =>
    rw [hn]
    exact (h.keep hs hb).alike (alike_extend _ _) (.refl _)

/-- The hat starts this bridge, or it does nothing to the world. Its tools are those that are put on the state. -/
structure Fitting.Uses (f : Fitting E σ) (bridge : BridgeRef) : Prop where
  started : f.starts = true →
    ∃ config, (HasPool.pool f.world).start config = (.ok bridge, HasPool.pool f.after)
  reused : f.starts = false → f.after = f.world
  session : f.next.session? (sessionKey f.state) = some ⟨f.state, bridge⟩
  fragment : f.fragment = Tools.fragment f.state ((HasPool.pool f.after).tools bridge)

theorem Fitting.Ways.exists_uses {f : Fitting E σ} {initial : Context E} (h : f.Ways) (ht : f.isTool = true)
    (hc : InStep initial f.context f.world) : ∃ bridge, f.Uses bridge := by
  cases h with
  | spare hno =>
    rw [hno] at ht
    cases ht
  | reuse session _ hs hn ha hf =>
    refine ⟨session.bridge, ?_, fun _ => ha, ?_, hf⟩
    . intro hstarts
      rw [starts_of_reuse ha] at hstarts
      cases hstarts
    . rw [hn, (alike_extend _ _).sessions, hs, ← (hc.holds _ _ hs).1]
  | start config bridge _ _ hb hn hf =>
    refine ⟨bridge, fun _ => ⟨config, hb⟩, ?_, ?_, hf⟩
    . intro hstarts
      rw [starts_of_start hb] at hstarts
      cases hstarts
    . rw [hn, (alike_extend _ _).sessions, session?_keep, if_pos rfl]

/-! ## Any number of hats -/

/-- The states for which a bridge was started, in the order in which this was done. -/
def starters (fs : List (Fitting E σ)) : List StateId :=
  (fs.filter fun f => f.isTool && f.starts).map (·.state)

theorem starters_cons (f : Fitting E σ) (fs : List (Fitting E σ)) :
    starters (f :: fs) = if f.isTool && f.starts then f.state :: starters fs else starters fs := by
  unfold starters
  rw [List.filter_cons]
  split
  . rfl
  . rfl

section

variable [LawfulPool σ] {registry : HatRegistry E σ} {fs : List (Fitting E σ)}

theorem Chain.inStep (hr : registry.EquipsTools) (h : Chain registry c w fs d v)
    (hc : InStep initial c w) : InStep initial d v := by
  induction h with
  | nil hl => exact hc.alike (.refl _) hl
  | cons f hl hm _ ih => exact ih ((hc.alike (.refl _) hl).step (hm.ways hr))

theorem Chain.session?_of_some (hr : registry.EquipsTools) (h : Chain registry c w fs d v)
    (hs : c.session? (sessionKey s) = some session) : d.session? (sessionKey s) = some session := by
  induction h with
  | nil => exact hs
  | cons f _ hm _ ih => exact ih ((hm.ways hr).session?_of_some hs)

theorem Chain.isSome_session?_iff (hr : registry.EquipsTools) (h : Chain registry c w fs d v) (s : StateId) :
    (d.session? (sessionKey s)).isSome ↔ (c.session? (sessionKey s)).isSome ∨ s ∈ starters fs := by
  induction h with
  | nil => simp [starters]
  | cons f _ hm _ ih =>
    rw [ih, (hm.ways hr).isSome_session?_iff, starters_cons]
    split
    . next hs => simp [hs, or_assoc]
    . next hs => simp [hs]

theorem Chain.session?_of_mem_starters (hr : registry.EquipsTools) (h : Chain registry c w fs d v)
    (hs : s ∈ starters fs) : c.session? (sessionKey s) = none := by
  induction h with
  | nil => cases hs
  | cons f _ hm _ ih =>
    have hw := hm.ways hr
    rw [starters_cons] at hs
    split at hs
    . next hstarts =>
      rcases List.mem_cons.mp hs with rfl | hs
      . exact hw.session?_of_starts hstarts
      . exact hw.session?_of_none (ih hs)
    . exact hw.session?_of_none (ih hs)

theorem Chain.nodup_starters (hr : registry.EquipsTools) (h : Chain registry c w fs d v) :
    (starters fs).Nodup := by
  induction h with
  | nil => exact .nil
  | cons f _ hm rest ih =>
    rw [starters_cons]
    split
    . next hstarts =>
      refine List.nodup_cons.mpr ⟨?_, ih⟩
      -- The first hat leaves a session, so that none of the others starts a bridge for the state.
      intro hmem
      have hsome := ((hm.ways hr).isSome_session?_iff f.state).mpr (.inr ⟨hstarts, rfl⟩)
      rw [rest.session?_of_mem_starters hr hmem] at hsome
      cases hsome
    . exact ih

theorem Chain.exists_uses (hr : registry.EquipsTools) (h : Chain registry c w fs d v) (hc : InStep initial c w)
    {f : Fitting E σ} (hf : f ∈ fs) (ht : f.isTool = true) :
    ∃ bridge, f.Uses bridge ∧ d.session? (sessionKey f.state) = some ⟨f.state, bridge⟩ := by
  induction h with
  | nil => cases hf
  | cons g hl hm rest ih =>
    have hg := hc.alike (.refl _) hl
    rcases List.mem_cons.mp hf with rfl | hf
    . rcases (hm.ways hr).exists_uses ht hg with ⟨bridge, huses⟩
      exact ⟨bridge, huses, rest.session?_of_some hr huses.session⟩
    . exact ih (hg.step (hm.ways hr)) hf

end

end

/-! ## Stopping -/

section

variable {E : Extension} {σ : Type} [HasPool σ] {world : σ} {ref : BridgeRef}

/-- What a hook does that does not belong to this library neither takes bridges away nor opens them again. -/
structure Conduct.SparesBridges (conduct : Conduct E σ) : Prop where
  held : ∀ hook world ref, Held world ref → Held (conduct.release hook world).2 ref
  shut : ∀ hook world ref, Shut world ref → Shut (conduct.release hook world).2 ref

theorem Pool.bridge?_shutdown (pool : Pool) (ref other : BridgeRef) :
    (pool.shutdown other).bridge? ref =
      if ref = other then (pool.bridge? ref).map Bridge.shutdown else pool.bridge? ref := by
  unfold shutdown bridge?
  rw [List.getElem?_modify]
  rcases ref with ⟨i⟩
  rcases other with ⟨j⟩
  by_cases he : j = i
  . simp [he]
  . simp [he, Ne.symm he]

variable [LawfulPool σ] {conduct : Conduct E σ}

theorem bridge?_release (other : BridgeRef) :
    (HasPool.pool (conduct.surroundings.release (.bridge other) world).2).bridge? ref =
      if ref = other then ((HasPool.pool world).bridge? ref).map Bridge.shutdown
      else (HasPool.pool world).bridge? ref := by
  show (HasPool.pool (HasPool.setPool world ((HasPool.pool world).shutdown other))).bridge? ref = _
  rw [LawfulPool.pool_setPool, Pool.bridge?_shutdown]

theorem held_release (hc : conduct.SparesBridges) (release : Release E) (h : Held world ref) :
    Held (conduct.surroundings.release release world).2 ref := by
  cases release with
  | custom hook => exact hc.held hook world ref h
  | bridge other =>
    rcases h with ⟨b, hb, he⟩
    unfold Held
    rw [bridge?_release, hb]
    split
    . exact ⟨b.shutdown, rfl, fun _ => Bridge.ended_shutdown he⟩
    . exact ⟨b, rfl, he⟩

theorem shut_release_bridge (h : Held world ref) :
    Shut (conduct.surroundings.release (.bridge ref) world).2 ref := by
  rcases h with ⟨b, hb, he⟩
  unfold Shut
  rw [bridge?_release, if_pos rfl, hb]
  exact ⟨b.shutdown, rfl, b.isShut_shutdown, Bridge.ended_shutdown he⟩

theorem shut_release (hc : conduct.SparesBridges) (release : Release E) (h : Shut world ref) :
    Shut (conduct.surroundings.release release world).2 ref := by
  cases release with
  | custom hook => exact hc.shut hook world ref h
  | bridge other =>
    by_cases he : ref = other
    . subst he
      exact shut_release_bridge h.held
    . unfold Shut at h ⊢
      rw [bridge?_release, if_neg he]
      exact h

/-- The bridge of a hook takes no time to be shut, and no other hook opens it. -/
theorem shut_runHooks (hc : conduct.SparesBridges) {timeout : Duration} (ht : timeout ≠ .zero)
    (hooks : List (StopHook E)) (hh : Held world ref)
    (h : Shut world ref ∨ ∃ hook ∈ hooks, hook.release = .bridge ref) :
    Shut (runHooks conduct.surroundings.release timeout hooks world).2 ref := by
  induction hooks generalizing world with
  | nil =>
    rcases h with h | ⟨hook, hm, _⟩
    . exact h
    . cases hm
  | cons hook rest ih =>
    unfold runHooks
    dsimp only
    split
    . next htime =>
      apply ih hh
      rcases h with h | ⟨other, hm, ho⟩
      . exact .inl h
      . rcases List.mem_cons.mp hm with rfl | hm
        . rw [ho] at htime
          rcases htime with hz | hlt
          . exact absurd hz ht
          . exact absurd hlt (Nat.not_lt_zero _)
        . exact .inr ⟨other, hm, ho⟩
    . apply ih (held_release hc hook.release hh)
      rcases h with h | ⟨other, hm, ho⟩
      . exact .inl (shut_release hc hook.release h)
      . rcases List.mem_cons.mp hm with rfl | hm
        . rw [ho]
          exact .inl (shut_release_bridge hh)
        . exact .inr ⟨other, hm, ho⟩

end

/-! ## Using tools -/

section

variable {E : Extension} {σ : Type} [HasPool σ] [LawfulPool σ] {world : σ} {ref : BridgeRef} {b next : Bridge}

theorem later_replace (hb : (HasPool.pool world).bridge? ref = some b)
    (he : (b.isShut = true → b.Ended) → next.isShut = true → next.Ended) :
    Later world (HasPool.setPool world ((HasPool.pool world).replace ref next)) := by
  intro other ⟨held, hheld, hended⟩
  unfold Held
  rw [LawfulPool.pool_setPool]
  unfold Pool.replace Pool.bridge? at *
  rw [List.getElem?_set]
  by_cases hi : ref.index = other.index
  . rw [hi, hheld] at hb
    cases hb
    rw [if_pos hi, hi, if_pos (List.getElem?_eq_some_iff.mp hheld).1]
    exact ⟨next, rfl, he hended⟩
  . rw [if_neg hi]
    exact ⟨held, hheld, hended⟩

/-- No bridge goes away or is shut when tools are used. -/
theorem Tools.later_act (state : StateId) (context : Context E) (message : Json) (world : σ) :
    Later world (act state context message world).2 := by
  unfold act
  dsimp only
  split
  . exact .refl world
  . exact .refl world
  . next ref bridge calls hs _ =>
    rcases Option.bind_eq_some_iff.mp hs with ⟨session, _, hmap⟩
    rcases Option.map_eq_some_iff.mp hmap with ⟨found, hb, hpair⟩
    cases hpair
    split
    . exact later_replace hb fun he hshut => (he hshut).callAll calls _
    . exact later_replace hb fun he hshut => ((he hshut).callAll calls _).drain

end

/-! ## One session and one hook -/

section

variable {E : Extension} {σ : Type} [HasPool σ]

/-- What is there of sessions, given the hats that were put on. -/
structure OneSession (initial final : Context E) (fs : List (Fitting E σ)) : Prop where
  /-- A bridge is started at most once for each state. -/
  once : (starters fs).Nodup
  /-- Whatever its configuration, each hat uses the session that is there in the end. -/
  same : ∀ f ∈ fs, f.isTool = true →
    ∃ bridge, f.Uses bridge ∧ final.session? (sessionKey f.state) = some ⟨f.state, bridge⟩
  /-- The states with a session are those for which a bridge was started. -/
  sessions : ∀ s, (final.session? (sessionKey s)).isSome ↔ s ∈ starters fs
  states : ∀ s session, final.session? (sessionKey s) = some session → session.state = s
  /-- No two states share a bridge. -/
  apart : ∀ s t a b, final.session? (sessionKey s) = some a → final.session? (sessionKey t) = some b →
    a.bridge = b.bridge → s = t
  /-- One hook has come for each session, with the name of its state. -/
  hooks : ∀ s, hooksOf final s = hooksOf initial s ++ (final.session? (sessionKey s)).toList.map (hookFor s)

/--
Let machines be composed with one context that has no sessions at first, with hats of which only the one for
tools has to do with sessions. Then no state has a bridge started for it twice, all hats for tools on a state
use the same session, and it has one session and one stop hook. At any later time the stop hooks shut each
bridge, if they are given any time: then its channel is closed, and its process has ended.
-/
theorem Tools.sessions_single [LawfulPool σ] {registry : HatRegistry E σ} (hr : registry.EquipsTools)
    {initial final : Context E} {world after : σ} {fs : List (Fitting E σ)}
    (hi : ∀ s, initial.session? (sessionKey s) = none) (h : Passes registry initial world fs final after) :
    OneSession initial final fs
    ∧ ∀ conduct : Conduct E σ, conduct.SparesBridges → ∀ timeout ≠ Duration.zero, ∀ later, Later after later →
        ∀ s session, final.session? (sessionKey s) = some session →
          Shut (final.runStopHooks conduct.surroundings.release timeout later).2.2 session.bridge := by
  have hchain := h.chain
  have hstep := hchain.inStep hr (.start hi world)
  constructor
  . refine ⟨hchain.nodup_starters hr, ?_, ?_, ?_, hstep.apart, hstep.hooks⟩
    . intro f hf ht
      exact hchain.exists_uses hr (.start hi world) hf ht
    . intro s
      rw [hchain.isSome_session?_iff hr, hi s]
      simp
    . intro s session hs
      exact (hstep.holds s session hs).1
  . intro conduct hc timeout ht later hl s session hs
    have hheld : Held later session.bridge := hl session.bridge (hstep.holds s session hs).2
    have hmem : hookFor s session ∈ hooksOf final s := by
      rw [hstep.hooks, hs]
      simp
    apply shut_runHooks hc ht _ hheld
    exact .inr ⟨hookFor s session, List.mem_reverse.mpr (List.mem_of_mem_filter hmem), rfl⟩

end

/-!
Two machines that are composed one after the other. The first one gives tools to the worker. In the second one
the worker has its tools from before, and the helper gets its own.
-/

namespace Passes.Sample

def worker : StateId := ⟨"worker"⟩

def helper : StateId := ⟨"helper"⟩

def settings : Json :=
  .object [("command", "server")]

def machine : Machine :=
  (Machine.new "first" "1").addState { State.new worker with hats := [⟨name, settings⟩] }

def further : Machine :=
  { Machine.new "second" "1" with hats := .ofList [(name, [worker])] }
    |>.addState { State.new helper with hats := [⟨name, settings⟩] }

def pool (bridges : List Bridge) : Pool :=
  ⟨Link.Sample.programs, bridges⟩

def opened : Context Sample.extension :=
  extend (keep {} worker ⟨0⟩) worker

def joined : Context Sample.extension :=
  extend (keep opened helper ⟨1⟩) helper

/-- A call of a tool of the worker. -/
def message : Json :=
  .object [("name", "search"), ("arguments", .object [])]

def conduct : Conduct Sample.extension Pool where
  act _ loop _ pool := (⟨[], .zero, .returned (.ok (loop.context, .wait))⟩, pool)
  provide _ _ _ := .error ⟨"no schema"⟩
  release _ pool := (⟨.ofSeconds 9, .completed⟩, pool)

theorem start_pool (bridges : List Bridge) :
    ∃ bridge, (pool bridges).start Link.Sample.config = (.ok ⟨bridges.length⟩, pool (bridges ++ [bridge])) :=
  Pool.exists_start Link.Sample.exists_start

theorem exists_passes : ∃ (fs : List (Fitting Sample.extension Pool)) (bridges : List Bridge),
    Passes .standard {} (pool []) fs (extend joined worker) (pool bridges)
    ∧ fs.map (fun f => (f.state, f.starts)) = [(worker, true), (helper, true), (worker, false)] := by
  have hget : (HatRegistry.standard : HatRegistry Sample.extension Pool).get? name = some maker :=
    HatRegistry.equipsTools_standard.tools
  rcases start_pool [] with ⟨a, ha⟩
  rcases start_pool [a] with ⟨b, hb⟩
  have hworker : (hat worker (some Link.Sample.config)).apply {} (pool []) =
      (.ok (opened, fragment worker ((pool [a]).tools ⟨0⟩)), pool [a]) := apply_start rfl ha
  have hhelper : (hat helper (some Link.Sample.config)).apply opened (pool [a]) =
      (.ok (joined, fragment helper ((pool [a, b]).tools ⟨1⟩)), pool [a, b]) := apply_start rfl hb
  have hsession : joined.session? (sessionKey worker) = some ⟨worker, ⟨0⟩⟩ := rfl
  have hagain : (hat worker none).apply joined (pool [a, b]) =
      (.ok (extend joined worker, fragment worker ((pool [a, b]).tools ⟨0⟩)), pool [a, b]) :=
    apply_reuse hsession none
  have hfirst : fittings .standard machine.declarations {} (pool []) = [_] :=
    fittings_of_apply hget rfl hworker []
  have hsecond : fittings .standard further.declarations opened (pool [a]) = [_, _] :=
    (fittings_of_apply hget rfl hhelper _).trans (congrArg _ (fittings_of_apply hget rfl hagain []))
  refine ⟨_, _, .pass machine (.refl _) (applyAll_of_apply hget rfl hworker []) <|
    .pass further (.refl _) ((applyAll_of_apply hget rfl hhelper _).trans (applyAll_of_apply hget rfl hagain []))
      (.done (.refl _)), ?_⟩
  show (fittings .standard machine.declarations {} (pool []) ++
    (fittings .standard further.declarations opened (pool [a]) ++ [])).map _ = _
  rw [hfirst, hsecond]
  rfl

end Passes.Sample

theorem Tools.sessions_single_further :
    ∃ (fs : List (Fitting Sample.extension Pool)) (final : Context Sample.extension) (after : Pool),
      Passes .standard {} (Passes.Sample.pool []) fs final after
      ∧ fs.map (fun f => (f.state, f.starts)) =
        [(Passes.Sample.worker, true), (Passes.Sample.helper, true), (Passes.Sample.worker, false)]
      ∧ OneSession {} final fs
      ∧ let used := (Tools.act Passes.Sample.worker final Passes.Sample.message after).2
        ∀ ref ∈ [⟨0⟩, ⟨1⟩],
          Shut (final.runStopHooks Passes.Sample.conduct.surroundings.release (.ofSeconds 5) used).2.2 ref := by
  rcases Passes.Sample.exists_passes with ⟨fs, bridges, h, hfs⟩
  rcases sessions_single HatRegistry.equipsTools_standard (fun _ => rfl) h with ⟨hone, hshut⟩
  have hspares : Passes.Sample.conduct.SparesBridges := ⟨fun _ _ _ h => h, fun _ _ _ h => h⟩
  have hlater := later_act Passes.Sample.worker (extend Passes.Sample.joined Passes.Sample.worker)
    Passes.Sample.message (Passes.Sample.pool bridges)
  have hstopped := hshut Passes.Sample.conduct hspares (.ofSeconds 5) (by decide) _ hlater
  refine ⟨fs, _, _, h, hfs, hone, ?_⟩
  intro used ref hm
  simp only [List.mem_cons, List.not_mem_nil, or_false] at hm
  rcases hm with rfl | rfl
  . exact hstopped Passes.Sample.worker ⟨Passes.Sample.worker, ⟨0⟩⟩ rfl
  . exact hstopped Passes.Sample.helper ⟨Passes.Sample.helper, ⟨1⟩⟩ rfl

end Turnstile
