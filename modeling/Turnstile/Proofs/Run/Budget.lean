import Mathlib.Algebra.BigOperators.Group.Finset.Basic
import Mathlib.Algebra.Order.BigOperators.Group.Finset
import Mathlib.Combinatorics.Pigeonhole
import Turnstile.Proofs.Run.Attempt

/-!
This module contains how often an action is invoked for one event. The attempts are counted along each chain
of rejected events, and not for the event that has entered the state: an invocation that emits several events
can be followed by as many further attempts as these events are rejected.
-/

namespace Turnstile

/-!
A run with two attempts at most, in which both events of the first attempt are rejected.
-/

namespace Sample

def strict : Loop extension :=
  { loop with maxAttempts := 2 }

def branchingMoves : List (Move extension) :=
  [.arrive entering, .take provide, .settle (.ok (context, .fanOut [leaving, leaving])), .emit, .emit,
    .emit, .take provide, .settle (.ok (context, .wait)), .emit, .take provide]

def branching : Chronicle extension :=
  (Chronicle.begin strict).playAll branchingMoves

end Sample

namespace Hearing

variable {E : Extension}

def isRejected (x : Hearing E) : Bool :=
  match x.verdict with
  | .rejected _ => true
  | _ => false

theorem isRejected_iff (x : Hearing E) :
    x.isRejected = true ↔ ∃ failure, x.verdict = .rejected failure := by
  unfold isRejected
  split
  . next failure h => simp [h]
  . next h =>
    simp only [Bool.false_eq_true, false_iff, not_exists]
    exact h

end Hearing

namespace Chronicle

variable {E : Extension} {machine : Machine} {seed : Trail} {c : Chronicle E} {v w : Visit E}
  {limit : UInt32}

/-- The positions of the invocations for the event at a position, with all further attempts. -/
def invocationsFor (c : Chronicle E) (e : Nat) : Finset Nat :=
  (Finset.range c.visits.length).filter fun n => (c.visits[n]?).any (·.entering = e)

/-- The positions of the events that an invocation has emitted and that were rejected. -/
def rejectionsOf (c : Chronicle E) (m : Nat) : Finset Nat :=
  (Finset.range c.heard.length).filter fun n =>
    c.emitter? n = some m ∧ (c.heard[n]?).any (·.isRejected)

/-- The positions of the rejected events that have led to a further attempt for an event. -/
def retriesFor (c : Chronicle E) (e : Nat) : Finset Nat :=
  (c.invocationsFor e).biUnion fun m => (c.rejectionsOf m).filter (· < c.visits.length)

theorem mem_invocationsFor_iff {e n : Nat} :
    n ∈ c.invocationsFor e ↔ ∃ v, c.visits[n]? = some v ∧ v.entering = e := by
  unfold invocationsFor
  rw [Finset.mem_filter, Finset.mem_range]
  constructor
  . intro ⟨hn, h⟩
    rw [List.getElem?_eq_getElem hn, Option.any_some, decide_eq_true_eq] at h
    exact ⟨_, List.getElem?_eq_getElem hn, h⟩
  . intro ⟨v, hv, hentering⟩
    refine ⟨(List.getElem?_eq_some_iff.1 hv).1, ?_⟩
    rw [hv, Option.any_some, decide_eq_true_eq]
    exact hentering

theorem mem_rejectionsOf_iff {m n : Nat} :
    n ∈ c.rejectionsOf m ↔ c.emitter? n = some m
      ∧ ∃ x failure, c.heard[n]? = some x ∧ x.verdict = .rejected failure := by
  unfold rejectionsOf
  rw [Finset.mem_filter, Finset.mem_range]
  constructor
  . intro ⟨hn, hm, h⟩
    rw [List.getElem?_eq_getElem hn, Option.any_some, Hearing.isRejected_iff] at h
    rcases h with ⟨failure, hfailure⟩
    exact ⟨hm, _, failure, List.getElem?_eq_getElem hn, hfailure⟩
  . intro ⟨hm, x, failure, hx, hfailure⟩
    refine ⟨(List.getElem?_eq_some_iff.1 hx).1, hm, ?_⟩
    rw [hx, Option.any_some, Hearing.isRejected_iff]
    exact ⟨failure, hfailure⟩

/-- What all chronicles of runs have in common. -/
structure Regular (machine : Machine) (seed : Trail) (limit : UInt32) (c : Chronicle E) : Prop where
  kept : Kept machine seed c
  guarded : Guarded machine c
  chained : Chained limit c

theorem regular_playAll {context : Context E} {config : RunConfig} {l : Loop E}
    (h : Loop.start machine context seed config = .ok l) (moves : List (Move E)) :
    Regular machine seed config.attempts ((begin l).playAll moves) :=
  ⟨kept_playAll h moves, guarded_playAll h moves, chained_playAll h moves⟩

namespace Regular

/-- An invocation for an event is the one that the event itself has caused, or a further attempt. -/
theorem invocation_cases (regular : Regular machine seed limit c) {e n : Nat} (hv : c.visits[n]? = some v)
    (hentering : v.entering = e) :
    (n = e ∧ v.invocation.attempt = 1)
    ∨ ∃ m w, m < n ∧ m ∈ c.invocationsFor e ∧ n ∈ c.rejectionsOf m ∧ c.emitter? n = some m
        ∧ c.visits[m]? = some w
        ∧ v.invocation.attempt.toNat = w.invocation.attempt.toNat + 1 := by
  have hmem := List.mem_of_getElem? hv
  have hcause := regular.guarded.cause n v hv
  rcases regular.chained.paced v hmem with ⟨x, hx, _, ⟨hverdict, hattempt, _⟩ | ⟨m, w, failure, hr⟩⟩
  . left
    rw [← hcause, ← hentering, regular.guarded.entering_of_accepted hmem hx hverdict]
    exact ⟨rfl, hattempt⟩
  . right
    have hm := hr.emitter
    have hearlier := hr.earlier
    rcases regular.guarded.same_of_repeats hmem hx hr with ⟨_, _, hsame⟩
    rw [hcause] at hm hearlier hx
    refine ⟨m, w, hearlier, ?_, ?_, hm, hr.visit, hr.attempt_toNat.1⟩
    . exact mem_invocationsFor_iff.2 ⟨w, hr.visit, hsame.trans hentering⟩
    . exact mem_rejectionsOf_iff.2 ⟨hm, x, failure, hx, hr.rejected⟩

theorem mem_invocationsFor_self (regular : Regular machine seed limit c) {e n : Nat}
    (hn : n ∈ c.invocationsFor e) : e ∈ c.invocationsFor e := by
  induction n using Nat.strong_induction_on with
  | _ n ih =>
    rcases mem_invocationsFor_iff.1 hn with ⟨v, hv, hentering⟩
    rcases regular.invocation_cases hv hentering with ⟨rfl, _⟩ | ⟨m, _, hearlier, hm, _⟩
    . exact hn
    . exact ih m hearlier hm

/-- A rejected event that did not end the run has led to a further attempt of the action that sent it. -/
theorem mem_invocationsFor_of_rejection (regular : Regular machine seed limit c) {e m n : Nat}
    (hm : m ∈ c.invocationsFor e) (hn : n ∈ c.rejectionsOf m) (hanswered : n < c.visits.length) :
    n ∈ c.invocationsFor e ∧ n ≠ e := by
  rcases mem_rejectionsOf_iff.1 hn with ⟨hemitter, x, failure, hx, hverdict⟩
  rcases mem_invocationsFor_iff.1 hm with ⟨w, hw, hentering⟩
  have hv : c.visits[n]? = some c.visits[n] := List.getElem?_eq_getElem hanswered
  have hcause := regular.guarded.cause n _ hv
  rcases regular.guarded.answers _ (List.mem_of_getElem? hv) with ⟨y, hy, hends⟩
  rw [hcause] at hy hends
  rw [hx] at hy
  injection hy with hy
  subst hy
  rcases hends with ⟨haccepted, _⟩ | ⟨_, u, hu, hsame, _⟩
  . rw [hverdict] at haccepted
    cases haccepted
  . rw [sender?_eq_bind, hemitter, Option.bind_some, hw] at hu
    injection hu with hu
    subst hu
    refine ⟨mem_invocationsFor_iff.2 ⟨_, hv, hsame.trans hentering⟩, ?_⟩
    -- The event for which the state was entered had been accepted.
    intro heq
    rcases regular.guarded.entered w (List.mem_of_getElem? hw) with ⟨_, y, hy, haccepted, _⟩
    rw [hentering, ← heq, hx] at hy
    injection hy with hy
    subst hy
    rw [hverdict] at haccepted
    cases haccepted

theorem mem_retriesFor_iff (regular : Regular machine seed limit c) {e n : Nat} :
    n ∈ c.retriesFor e ↔ n ∈ c.invocationsFor e ∧ n ≠ e := by
  unfold retriesFor
  simp only [Finset.mem_biUnion, Finset.mem_filter]
  constructor
  . intro ⟨m, hm, hn, hanswered⟩
    exact regular.mem_invocationsFor_of_rejection hm hn hanswered
  . intro ⟨hn, hne⟩
    rcases mem_invocationsFor_iff.1 hn with ⟨v, hv, hentering⟩
    rcases regular.invocation_cases hv hentering with ⟨heq, _⟩ | ⟨m, _, _, hm, hrejection, _⟩
    . exact absurd heq hne
    . exact ⟨m, hm, hrejection, (List.getElem?_eq_some_iff.1 hv).1⟩

theorem card_invocationsFor (regular : Regular machine seed limit c) {e : Nat}
    (he : (c.invocationsFor e).Nonempty) :
    (c.invocationsFor e).card = 1 + (c.retriesFor e).card := by
  rcases he with ⟨n, hn⟩
  have hself := regular.mem_invocationsFor_self hn
  have herase : c.retriesFor e = (c.invocationsFor e).erase e := by
    ext k
    rw [regular.mem_retriesFor_iff, Finset.mem_erase, and_comm]
  rw [herase, Finset.card_erase_of_mem hself]
  have := Finset.card_pos.2 ⟨e, hself⟩
  omega

theorem card_invocationsFor_le_iff (regular : Regular machine seed limit c) (e : Nat) {most : Nat}
    (hmost : 1 ≤ most) :
    (c.invocationsFor e).card ≤ most ↔ (c.retriesFor e).card < most := by
  rcases (c.invocationsFor e).eq_empty_or_nonempty with hempty | hne
  . have hretries : c.retriesFor e = ∅ := by
      unfold retriesFor
      rw [hempty, Finset.biUnion_empty]
    simp [hempty, hretries]
    omega
  . rw [regular.card_invocationsFor hne]
    omega

/-- The invocations for an event that are the attempt with the given number. -/
def attemptsAt (c : Chronicle E) (e k : Nat) : Finset Nat :=
  (c.invocationsFor e).filter fun n => (c.visits[n]?).any (·.invocation.attempt.toNat = k)

theorem mem_attemptsAt_iff {e k n : Nat} :
    n ∈ attemptsAt c e k ↔
      ∃ v, c.visits[n]? = some v ∧ v.entering = e ∧ v.invocation.attempt.toNat = k := by
  unfold attemptsAt
  rw [Finset.mem_filter, mem_invocationsFor_iff]
  constructor
  . intro ⟨⟨v, hv, hentering⟩, h⟩
    rw [hv, Option.any_some, decide_eq_true_eq] at h
    exact ⟨v, hv, hentering, h⟩
  . intro ⟨v, hv, hentering, h⟩
    refine ⟨⟨v, hv, hentering⟩, ?_⟩
    rw [hv, Option.any_some, decide_eq_true_eq]
    exact h

theorem attemptsAt_one_subset (regular : Regular machine seed limit c) (e : Nat) :
    attemptsAt c e 1 ⊆ {e} := by
  intro n hn
  rcases mem_attemptsAt_iff.1 hn with ⟨v, hv, hentering, hattempt⟩
  rw [Finset.mem_singleton]
  rcases regular.invocation_cases hv hentering with ⟨heq, _⟩ | ⟨m, w, _, _, _, _, hw, hnext⟩
  . exact heq
  . have := (regular.chained.paced w (List.mem_of_getElem? hw)).one_le
    omega

/-- Each attempt is followed by at most as many further ones as its events were rejected. -/
theorem card_attemptsAt_succ_le (regular : Regular machine seed limit c) {e b k : Nat} (hk : 1 ≤ k)
    (hb : ∀ m ∈ c.invocationsFor e, (c.rejectionsOf m).card ≤ b) :
    (attemptsAt c e (k + 1)).card ≤ b * (attemptsAt c e k).card := by
  have hparent : ∀ n ∈ attemptsAt c e (k + 1), ∃ m ∈ attemptsAt c e k,
      n ∈ c.rejectionsOf m ∧ c.emitter? n = some m := by
    intro n hn
    rcases mem_attemptsAt_iff.1 hn with ⟨v, hv, hentering, hattempt⟩
    rcases regular.invocation_cases hv hentering with
      ⟨_, hone⟩ | ⟨m, w, _, hm, hrejection, hemitter, hw, hnext⟩
    . rw [hone, UInt32.toNat_one] at hattempt
      omega
    . rcases mem_invocationsFor_iff.1 hm with ⟨u, hu, hentering⟩
      rw [hw] at hu
      injection hu with hu
      subst hu
      exact ⟨m, mem_attemptsAt_iff.2 ⟨w, hw, hentering, by omega⟩, hrejection, hemitter⟩
  apply Finset.card_le_mul_card_image_of_maps_to (f := fun n => (c.emitter? n).getD 0)
  . intro n hn
    rcases hparent n hn with ⟨m, hm, _, hemitter⟩
    rw [hemitter]
    exact hm
  . intro m hm
    have hsub : {n ∈ attemptsAt c e (k + 1) | (c.emitter? n).getD 0 = m} ⊆ c.rejectionsOf m := by
      intro n hn
      rw [Finset.mem_filter] at hn
      rcases hparent n hn.1 with ⟨m', _, hrejection, hemitter⟩
      rw [hemitter] at hn
      rw [← hn.2]
      exact hrejection
    exact (Finset.card_le_card hsub).trans (hb m (Finset.mem_of_mem_filter m hm))

theorem card_attemptsAt_le (regular : Regular machine seed limit c) {e b : Nat}
    (hb : ∀ m ∈ c.invocationsFor e, (c.rejectionsOf m).card ≤ b) (k : Nat) :
    (attemptsAt c e (k + 1)).card ≤ b ^ k := by
  induction k with
  | zero =>
    rw [pow_zero]
    exact Finset.card_le_card (regular.attemptsAt_one_subset e)
  | succ k ih =>
    refine (regular.card_attemptsAt_succ_le (by omega) hb).trans ?_
    rw [pow_succ, Nat.mul_comm]
    exact Nat.mul_le_mul_right b ih

theorem card_invocationsFor_le (regular : Regular machine seed limit c) (hlimit : 1 ≤ limit.toNat)
    {e b : Nat} (hb : ∀ m ∈ c.invocationsFor e, (c.rejectionsOf m).card ≤ b) :
    (c.invocationsFor e).card ≤ ∑ k ∈ Finset.range limit.toNat, b ^ k := by
  have hcover : c.invocationsFor e
      ⊆ (Finset.range limit.toNat).biUnion fun k => attemptsAt c e (k + 1) := by
    intro n hn
    rcases mem_invocationsFor_iff.1 hn with ⟨v, hv, hentering⟩
    have hpaced := regular.chained.paced v (List.mem_of_getElem? hv)
    have hone := hpaced.one_le
    have hle := hpaced.le_limit hlimit
    rw [Finset.mem_biUnion]
    refine ⟨v.invocation.attempt.toNat - 1, Finset.mem_range.2 (by omega), ?_⟩
    exact mem_attemptsAt_iff.2 ⟨v, hv, hentering, by omega⟩
  calc (c.invocationsFor e).card
      ≤ ((Finset.range limit.toNat).biUnion fun k => attemptsAt c e (k + 1)).card :=
        Finset.card_le_card hcover
    _ ≤ ∑ k ∈ Finset.range limit.toNat, (attemptsAt c e (k + 1)).card := Finset.card_biUnion_le
    _ ≤ ∑ k ∈ Finset.range limit.toNat, b ^ k :=
        Finset.sum_le_sum fun k _ => regular.card_attemptsAt_le hb k

end Regular

/--
An action is invoked for one event at most as often as the settings allow exactly if fewer rejected events than
that have led to a further attempt. It suffices that no invocation has more than one of its events rejected;
and if none has more than a given number, the attempts form a tree whose branching is this number.
-/
theorem invocations_bounded {context : Context E} {config : RunConfig} {l : Loop E}
    (h : Loop.start machine context seed config = .ok l) (moves : List (Move E)) (e : Nat) :
    let c := (begin l).playAll moves
    let most := max 1 config.maxAttempts.toNat
    ((c.invocationsFor e).card ≤ most ↔ (c.retriesFor e).card < most)
    ∧ ((∀ m ∈ c.invocationsFor e, (c.rejectionsOf m).card ≤ 1) → (c.invocationsFor e).card ≤ most)
    ∧ ∀ b, (∀ m ∈ c.invocationsFor e, (c.rejectionsOf m).card ≤ b) →
        (c.invocationsFor e).card ≤ ∑ k ∈ Finset.range most, b ^ k := by
  intro c most
  have regular : Regular machine seed config.attempts c := regular_playAll h moves
  have hmost : config.attempts.toNat = most := config.attempts_toNat
  have hone : 1 ≤ most := Nat.le_max_left _ _
  have htree : ∀ b, (∀ m ∈ c.invocationsFor e, (c.rejectionsOf m).card ≤ b) →
      (c.invocationsFor e).card ≤ ∑ k ∈ Finset.range most, b ^ k := by
    intro b hb
    rw [← hmost]
    exact regular.card_invocationsFor_le (by omega) hb
  refine ⟨regular.card_invocationsFor_le_iff e hone, ?_, htree⟩
  intro hb
  simpa using htree 1 hb

theorem invocations_bounded_branching :
    Loop.start Sample.machine Sample.context [] ⟨2, 5000⟩ = .ok Sample.strict
    ∧ (∀ m ∈ Sample.branching.invocationsFor 0, (Sample.branching.rejectionsOf m).card ≤ 2)
    ∧ (Sample.branching.invocationsFor 0).card ≤ ∑ k ∈ Finset.range 2, 2 ^ k := by
  have hstart : Loop.start Sample.machine Sample.context [] ⟨2, 5000⟩ = .ok Sample.strict := by rfl
  rcases invocations_bounded hstart Sample.branchingMoves 0 with ⟨_, _, htree⟩
  have hb : ∀ m ∈ Sample.branching.invocationsFor 0, (Sample.branching.rejectionsOf m).card ≤ 2 := by
    decide +kernel
  exact ⟨hstart, hb, htree 2 hb⟩

/-- Two rejected events of one invocation each lead to a second attempt. -/
theorem invocations_exceed_attempts :
    ¬ ∀ (machine : Machine) (context : Context Sample.extension) (seed : Trail) (config : RunConfig)
        (l : Loop Sample.extension), Loop.start machine context seed config = .ok l →
        ∀ (moves : List (Move Sample.extension)) (e : Nat),
          (((begin l).playAll moves).invocationsFor e).card ≤ max 1 config.maxAttempts.toNat := by
  intro h
  have hcard := h Sample.machine Sample.context [] ⟨2, 5000⟩ Sample.strict (by rfl) Sample.branchingMoves 0
  revert hcard
  decide +kernel

end Chronicle

end Turnstile
