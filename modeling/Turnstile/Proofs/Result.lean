import Mathlib.Data.List.Forall2

/-!
This module contains the results of computations that can fail, and of those that do the same with each
item of a list.
-/

namespace Turnstile

theorem bind_eq_ok {x : Except ε α} {f : α → Except ε β} (h : (x >>= f) = .ok b) :
    ∃ a, x = .ok a ∧ f a = .ok b := by
  cases x with
  | error _ => cases h
  | ok a => exact ⟨a, rfl, h⟩

theorem map_eq_ok {x : Except ε α} {f : α → β} (h : f <$> x = .ok b) : ∃ a, x = .ok a ∧ f a = b := by
  cases x with
  | error _ => cases h
  | ok a =>
    cases h
    exact ⟨a, rfl, rfl⟩

theorem map_eq_error {x : Except ε α} {f : α → β} (h : f <$> x = .error e) : x = .error e := by
  cases x with
  | error _ =>
    cases h
    rfl
  | ok _ => cases h

theorem bind_eq_error {x : Except ε α} {f : α → Except ε β} (h : (x >>= f) = .error e) :
    x = .error e ∨ ∃ a, x = .ok a ∧ f a = .error e := by
  cases x with
  | error _ =>
    cases h
    exact .inl rfl
  | ok a => exact .inr ⟨a, rfl, h⟩

/-- What a computation goes on with matters only where it has not failed. -/
theorem bind_congr_of_ok {x : Except ε α} {f g : α → Except ε β} (h : ∀ a, x = .ok a → f a = g a) :
    (x >>= f) = (x >>= g) := by
  cases x with
  | error _ => rfl
  | ok a => exact h a rfl

variable {α β ε : Type} {xs : List α} {ys : List β} {f : α → Except ε β}

theorem mapM_eq_ok_iff :
    xs.mapM f = .ok ys ↔ List.Forall₂ (fun x y => f x = .ok y) xs ys := by
  constructor
  . intro h
    induction xs generalizing ys with
    | nil =>
      cases h
      exact .nil
    | cons x rest ih =>
      rw [List.mapM_cons] at h
      rcases bind_eq_ok h with ⟨first, hf, h⟩
      rcases bind_eq_ok h with ⟨others, ho, h⟩
      cases h
      exact .cons hf (ih ho)
  . intro h
    induction h with
    | nil => rfl
    | cons hf _ ih =>
      rw [List.mapM_cons, hf, ih]
      rfl

theorem exists_of_forall₂ {R : α → β → Prop} (h : List.Forall₂ R xs ys) (hy : y ∈ ys) :
    ∃ x ∈ xs, R x y := by
  induction h with
  | nil => cases hy
  | cons hr _ ih =>
    cases hy with
    | head => exact ⟨_, .head _, hr⟩
    | tail _ hy =>
      rcases ih hy with ⟨x, hx, hr⟩
      exact ⟨x, .tail _ hx, hr⟩

theorem exists_of_mapM_eq_ok (h : xs.mapM f = .ok ys) :
    ∀ y ∈ ys, ∃ x ∈ xs, f x = .ok y := by
  intro y hy
  exact exists_of_forall₂ (R := fun x y => f x = .ok y) (mapM_eq_ok_iff.mp h) hy

theorem exists_of_mem_mapM (h : xs.mapM f = .ok ys) :
    ∀ x ∈ xs, ∃ y ∈ ys, f x = .ok y := by
  intro x hx
  exact exists_of_forall₂ (R := fun y x => f x = .ok y) (mapM_eq_ok_iff.mp h).flip hx

theorem exists_mapM_iff : (∃ ys, xs.mapM f = .ok ys) ↔ ∀ x ∈ xs, ∃ y, f x = .ok y := by
  simp only [mapM_eq_ok_iff]
  induction xs with
  | nil => simp
  | cons x rest ih =>
    rw [List.forall_mem_cons, ← ih]
    constructor
    . intro ⟨ys, h⟩
      cases h with
      | cons hf ho => exact ⟨⟨_, hf⟩, _, ho⟩
    . intro ⟨⟨first, hf⟩, others, ho⟩
      exact ⟨_, .cons hf ho⟩

end Turnstile
