import Turnstile.Proofs.Machine.Fault
import Turnstile.Proofs.Run.Static
import Turnstile.Proofs.Run.Threading

/-!
This module contains the states that cannot be entered in a run that has started. Starting checks that each state
has its action, so that there are two ways left: the state from which events come need not be declared, and an
action can return a context without the actions that were there at the start.
-/

namespace Turnstile

/-- Is the error that a state is missing, or the action of a state? -/
def RunError.isOfEntry : RunError → Bool
  | .unknownState _ | .noAction _ | .unknownAction _ _ => true
  | _ => false

namespace Return

variable {E : Extension} {returns : List (Return E)} {n : Nat}

theorem contextBefore_cases (returns : List (Return E)) (start : Context E) (n : Nat) :
    contextBefore returns start n = start
    ∨ ∃ r ∈ returns, r.visit < n ∧ r.context? = some (contextBefore returns start n) := by
  unfold contextBefore
  cases hlast : ((returns.filter (·.visit < n)).filterMap context?).getLast? with
  | none => exact .inl rfl
  | some context =>
    right
    rcases List.mem_filterMap.1 (List.mem_of_getLast? hlast) with ⟨r, hr, hcontext⟩
    rw [List.mem_filter, decide_eq_true_eq] at hr
    exact ⟨r, hr.1, hr.2, hcontext⟩

end Return

namespace Loop

variable {E : Extension} {machine : Machine} {start later : Context E} {seed : Trail} {config : RunConfig} {l : Loop E}
  {id : StateId} {error : RunError}

theorem action_of_actionProblem? {states : List State} {s : State} (h : actionProblem? start states = none)
    (hs : s ∈ states) : ∃ name, s.action = some name ∧ start.hasAction name = true := by
  induction states with
  | nil => cases hs
  | cons first rest ih =>
    unfold actionProblem? at h
    split at h
    . cases h
    . next name hname =>
      split at h
      . next haction =>
        rcases List.mem_cons.1 hs with rfl | hs
        . exact ⟨name, hname, haction⟩
        . exact ih h hs
      . cases h

theorem action_of_start {s : State} (h : Loop.start machine start seed config = .ok l) (hs : s ∈ machine.states) :
    ∃ name, s.action = some name ∧ start.hasAction name = true := by
  unfold Loop.start at h
  split at h
  . cases h
  . split at h
    . cases h
    . next hproblem => exact action_of_actionProblem? hproblem hs

/-- The two ways in which a state cannot be entered although the machine and the first context were in order. -/
inductive Deprived (machine : Machine) (start later : Context E) (id : StateId) : RunError → Prop where
  | undeclared (hid : id = .start) (h : machine.state? .start = none) :
    Deprived machine start later id (.unknownState id)
  | forgotten {name : String} (hstart : start.hasAction name = true) (hlater : later.hasAction name = false) :
    Deprived machine start later id (.unknownAction id name)

theorem Barred.deprived (h : Loop.start machine start seed config = .ok l) (hid : machine.Declares id)
    (hfinal : id ≠ .final) (hb : Barred machine later id error) : Deprived machine start later id error := by
  cases hb with
  | unknownState hnone =>
    rcases hid with rfl | rfl | ⟨s, hs, rfl⟩
    . exact .undeclared rfl hnone
    . exact absurd rfl hfinal
    . unfold Machine.state? at hnone
      rw [List.find?_eq_none] at hnone
      simpa using hnone s hs
  | noAction hstate hnone =>
    rcases action_of_start h (List.mem_of_find?_eq_some hstate) with ⟨name, hname, _⟩
    rw [hnone] at hname
    cases hname
  | unknownAction hstate hname hmissing =>
    rcases action_of_start h (List.mem_of_find?_eq_some hstate) with ⟨name, hother, haction⟩
    rw [hname] at hother
    injection hother with hother
    subst hother
    refine .forgotten haction ?_
    unfold Context.action? at hmissing
    simp [Context.hasAction, Table.contains, hmissing]

end Loop

namespace Hearing

variable {E : Extension} {machine : Machine} {x : Hearing E} {result : Except RunError Unit}

theorem Valid.declares (hcheck : machine.check = .ok ()) (h : x.Valid machine) :
    machine.Declares x.work.event.edge.target := by
  rcases h with ⟨t, schema, ht, _⟩
  have hid : t.id = x.work.event.edge := by simpa using List.find?_some ht
  rw [← hid]
  exact ((Machine.check_eq_ok_iff.1 hcheck).ends t (List.mem_of_find?_eq_some ht)).2

/-- Of what can end a run, only the entry into the target of an accepted event can miss a state or an action. -/
theorem Ends.barred_of_isOfEntry {error : RunError} (h : x.Ends (.error error)) (herror : error.isOfEntry = true) :
    x.verdict = .accepted ∧ x.work.event.edge.isTerminal = false
      ∧ Loop.Barred x.loop.machine x.loop.context x.work.event.edge.target error := by
  cases h with
  | barred hv hend hb => exact ⟨hv, hend, hb⟩
  | unusable hv =>
    have hschema := Loop.isOfSchema_of_judge hv
    cases error with
    | unknownState | noAction | unknownAction => cases hschema
    | _ => cases herror
  | giveUp hv => cases herror

end Hearing

namespace Chronicle

variable {E : Extension} {machine : Machine} {seed : Trail} {c : Chronicle E} {x : Hearing E} {n : Nat}

/-- An event that is accepted into a state that is not there ends the run. -/
theorem Kept.result_of_undeclared (kept : Kept machine seed c) (guarded : Guarded machine c)
    (concluded : Concluded c) (hx : c.heard[n]? = some x) (hvalid : x.Valid machine)
    (hfinal : x.work.event.edge.target ≠ .final) (hnone : machine.state? x.work.event.edge.target = none) :
    c.loop.result? = some (.error (.unknownState x.work.event.edge.target)) := by
  have hn := (List.getElem?_eq_some_iff.1 hx).1
  have hv := (kept.verdict_iff hx).2 hvalid
  rcases guarded.visit_of_heard hn with ⟨hlast, _, halone⟩ | ⟨v, hvisit, hcause⟩
  . have hun : Unanswered c x := by
      refine ⟨?_, fun v hv hcause => halone v hv (by omega)⟩
      rw [List.getLast?_eq_getElem?, ← hlast, Nat.add_sub_cancel]
      exact hx
    rcases concluded.exists_result guarded hun with ⟨result, hresult, hends⟩
    rw [hresult]
    cases hends with
    | complete _ hend => simp [Edge.isTerminal, StateId.isFinal, hfinal] at hend
    | barred _ _ hb =>
      rw [kept.heard_machine x (List.mem_of_getElem? hx)] at hb
      cases hb with
      | unknownState => rfl
      | noAction hstate | unknownAction hstate =>
        rw [hnone] at hstate
        cases hstate
    | unusable hother | giveUp hother =>
      rw [hv] at hother
      cases hother
  . -- An action would have been invoked for the event, in a state that is not there.
    have hmem := List.mem_of_getElem? hvisit
    rcases guarded.entered v hmem with ⟨hinvokes, y, hy, _, _, htarget, _⟩
    rcases guarded.answers v hmem with ⟨z, hz, hends⟩
    rw [hcause, hx] at hz
    injection hz with hz
    subst hz
    rcases hends with ⟨_, hentering⟩ | ⟨hrejected, _⟩
    . rw [hentering, hcause, hx] at hy
      injection hy with hy
      subst hy
      have hstate := hinvokes.state
      rw [htarget, hnone] at hstate
      cases hstate
    . exact absurd hv hrejected

end Chronicle

namespace Account

variable {E : Extension} {machine : Machine} {start : Context E} {seed : Trail} {config : RunConfig} {l : Loop E}
  {error : RunError}

theorem kept_playAll (h : Loop.start machine start seed config = .ok l) (moves : List (Move E)) :
    Chronicle.Kept machine seed ((begin l).playAll moves).chronicle := by
  rw [playAll_chronicle]
  exact Chronicle.kept_playAll h moves

theorem concluded_playAll (h : Loop.start machine start seed config = .ok l) (moves : List (Move E)) :
    Chronicle.Concluded ((begin l).playAll moves).chronicle := by
  rw [playAll_chronicle]
  exact Chronicle.concluded_playAll h moves

/-- A run that has failed over an entry has failed over the target of the event that it heard last. -/
theorem exists_deprived (h : Loop.start machine start seed config = .ok l) (moves : List (Move E)) :
    let a := (begin l).playAll moves
    a.chronicle.loop.result? = some (.error error) → error.isOfEntry = true →
      ∃ n x, a.chronicle.heard[n]? = some x ∧ n + 1 = a.chronicle.heard.length ∧ x.Valid machine
        ∧ Loop.Deprived machine start (a.contextBefore start n) x.work.event.edge.target error := by
  intro a hresult herror
  have kept : Chronicle.Kept machine seed a.chronicle := kept_playAll h moves
  have concluded : Chronicle.Concluded a.chronicle := concluded_playAll h moves
  rcases threaded_playAll h moves with ⟨guarded, threaded⟩
  rcases concluded.result_cases guarded hresult with ⟨other, haction⟩ | ⟨x, hx, hends⟩
  . cases haction
    cases herror
  . have hlast := hx.last
    rw [List.getLast?_eq_getElem?] at hlast
    have hn : a.chronicle.heard.length - 1 < a.chronicle.heard.length := (List.getElem?_eq_some_iff.1 hlast).1
    rcases hends.barred_of_isOfEntry herror with ⟨hv, hend, hb⟩
    have hvalid := (kept.verdict_iff hlast).1 hv
    rw [kept.heard_machine x (List.mem_of_getElem? hlast), threaded.heard _ x hlast] at hb
    refine ⟨_, x, hlast, Nat.sub_add_cancel (Nat.zero_lt_of_lt hn), hvalid, ?_⟩
    apply hb.deprived h (hvalid.declares (Loop.check_of_start h))
    intro hfinal
    simp [Edge.isTerminal, StateId.isFinal, hfinal] at hend

/--
A run that has started never fails since a state has no action. It fails over a state that is not there exactly if an
event was accepted into the state from which events come, and the machine does not declare it; and over an action that
is not there only if an action that was invoked before has returned a context without it. In both cases the run fails
over the target of the event that it has heard last, which was accepted; so it never does when an action is to be
invoked again for an event that it has emitted.
-/
theorem entries_barred (h : Loop.start machine start seed config = .ok l) (moves : List (Move E)) :
    let a := (begin l).playAll moves
    let c := a.chronicle
    (∀ id, c.loop.result? ≠ some (.error (.noAction id)))
    ∧ (∀ id, c.loop.result? = some (.error (.unknownState id)) ↔
        id = .start ∧ machine.state? .start = none
          ∧ ∃ x ∈ c.heard, x.Valid machine ∧ x.work.event.edge.target = .start)
    ∧ (∀ id name, c.loop.result? = some (.error (.unknownAction id name)) →
        ∃ n x, c.heard[n]? = some x ∧ x.Valid machine ∧ x.work.event.edge.target = id
          ∧ start.hasAction name = true
          ∧ ∃ r ∈ a.returns, r.visit < n
            ∧ ∃ context step, r.outcome = .ok (context, step) ∧ context.hasAction name = false)
    ∧ ∀ x, c.heard.getLast? = some x → ¬ x.Valid machine →
        ∀ error, c.loop.result? = some (.error error) → error.isOfEntry = false := by
  intro a c
  have kept : Chronicle.Kept machine seed c := kept_playAll h moves
  have concluded : Chronicle.Concluded c := concluded_playAll h moves
  rcases threaded_playAll h moves with ⟨guarded, threaded⟩
  refine ⟨?_, ?_, ?_, ?_⟩
  . intro id hresult
    rcases exists_deprived h moves hresult rfl with ⟨n, x, _, _, _, hdeprived⟩
    cases hdeprived
  . intro id
    constructor
    . intro hresult
      rcases exists_deprived h moves hresult rfl with ⟨n, x, hx, _, hvalid, hdeprived⟩
      generalize htarget : x.work.event.edge.target = target at hdeprived
      cases hdeprived with
      | undeclared hid hnone =>
        subst hid
        exact ⟨rfl, hnone, x, List.mem_of_getElem? hx, hvalid, htarget⟩
    . rintro ⟨rfl, hnone, x, hx, hvalid, htarget⟩
      rcases List.mem_iff_getElem?.1 hx with ⟨n, hx⟩
      rw [← htarget] at hnone ⊢
      apply kept.result_of_undeclared guarded concluded hx hvalid _ hnone
      rw [htarget]
      decide
  . intro id name hresult
    rcases exists_deprived h moves hresult rfl with ⟨n, x, hx, _, hvalid, hdeprived⟩
    generalize htarget : x.work.event.edge.target = target at hdeprived
    cases hdeprived with
    | forgotten hstart hlater =>
      refine ⟨n, x, hx, hvalid, htarget, hstart, ?_⟩
      rcases Return.contextBefore_cases a.returns start n with heq | ⟨r, hr, hvisit, hcontext⟩
      . rw [contextBefore, heq, hstart] at hlater
        cases hlater
      . refine ⟨r, hr, hvisit, a.contextBefore start n, ?_⟩
        unfold Return.context? at hcontext
        split at hcontext
        . next context step houtcome =>
          injection hcontext with hcontext
          subst hcontext
          exact ⟨step, houtcome, hlater⟩
        . cases hcontext
  . intro x hx hinvalid error hresult
    rw [← Bool.not_eq_true]
    intro herror
    rcases exists_deprived h moves hresult herror with ⟨n, y, hy, hn, hvalid, _⟩
    rw [List.getLast?_eq_getElem?, ← hn, Nat.add_sub_cancel, hy] at hx
    injection hx with hx
    exact hinvalid (hx ▸ hvalid)

end Account

/-!
A run in which an action sends an event to the state from which events come, and one in which an action returns
a context without its own name before a further event enters its state.
-/

namespace Sample

def returning : Machine :=
  machine.addTransition (.new ⟨"work"⟩ .start)

def back : Event := .new ⟨⟨"work"⟩, .start⟩ .null

def returningLoop : Loop extension :=
  ⟨returning, 3, context, [], [], .waiting⟩

def backMoves : List (Move extension) :=
  [.arrive entering, .take provide, .settle (.ok (context, .emit back)), .emit, .emit, .take provide]

def forgettingMoves : List (Move extension) :=
  [.arrive entering, .arrive entering, .take provide, .settle (.ok (.empty, .wait)), .emit, .take provide]

end Sample

namespace Account

theorem entries_barred_back :
    Loop.start Sample.returning Sample.context [] .standard = .ok Sample.returningLoop
    ∧ (∃ id, ((begin Sample.returningLoop).playAll Sample.backMoves).chronicle.loop.result?
          = some (.error (.unknownState id))
        ∧ id = .start)
    ∧ ∃ name, ((begin Sample.returningLoop).playAll Sample.forgettingMoves).chronicle.loop.result?
          = some (.error (.unknownAction ⟨"work"⟩ name))
        ∧ ∃ r ∈ ((begin Sample.returningLoop).playAll Sample.forgettingMoves).returns,
            ∃ context step, r.outcome = .ok (context, step) ∧ context.hasAction name = false := by
  have hstart : Loop.start Sample.returning Sample.context [] .standard = .ok Sample.returningLoop := by rfl
  rcases entries_barred hstart Sample.backMoves with ⟨_, hundeclared, _⟩
  rcases entries_barred hstart Sample.forgettingMoves with ⟨_, _, hforgotten, _⟩
  have hback : ∃ id, ((begin Sample.returningLoop).playAll Sample.backMoves).chronicle.loop.result?
      = some (.error (.unknownState id)) := ⟨_, rfl⟩
  have hforget : ∃ name, ((begin Sample.returningLoop).playAll Sample.forgettingMoves).chronicle.loop.result?
      = some (.error (.unknownAction ⟨"work"⟩ name)) := ⟨_, rfl⟩
  rcases hback with ⟨id, hback⟩
  rcases hforget with ⟨name, hforget⟩
  rcases hforgotten _ name hforget with ⟨_, _, _, _, _, _, r, hr, _, hreturned⟩
  exact ⟨hstart, ⟨id, hback, ((hundeclared id).1 hback).1⟩, name, hforget, r, hr, hreturned⟩

end Account

end Turnstile
