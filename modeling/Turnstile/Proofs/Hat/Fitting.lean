import Turnstile.Hat.Composition
import Turnstile.Hat.Echo
import Turnstile.Proofs.Table

/-!
This module contains the hats that a composition puts on, one after the other. The first one that fails ends the
composition, and those that the registry does not know are left out.
-/

namespace Turnstile

variable {E : Extension} {σ : Type}

/-- A hat that was put on, with what it has found and what it has left. -/
structure Fitting (E : Extension) (σ : Type) where
  declaration : Declaration
  context : Context E
  world : σ
  next : Context E
  after : σ
  fragment : Fragment

namespace Fitting

def state (f : Fitting E σ) : StateId :=
  f.declaration.state

/-- The registry has the hat, and it was put on as the fitting says. -/
def Made (registry : HatRegistry E σ) (f : Fitting E σ) : Prop :=
  ∃ make hat, registry.get? f.declaration.hat = some make
    ∧ make f.declaration.state f.declaration.config = .ok hat
    ∧ hat.apply f.context f.world = (.ok (f.next, f.fragment), f.after)

end Fitting

/-- The hats that a composition puts on, up to the first one that fails. -/
def fittings (registry : HatRegistry E σ) : List Declaration → Context E → σ → List (Fitting E σ)
  | [], _, _ => []
  | d :: rest, context, world =>
    match registry.get? d.hat with
    | none => fittings registry rest context world
    | some make =>
      match make d.state d.config with
      | .error _ => []
      | .ok hat =>
        match hat.apply context world with
        | (.error _, _) => []
        | (.ok (next, fragment), after) =>
          ⟨d, context, world, next, after, fragment⟩ :: fittings registry rest next after

variable {registry : HatRegistry E σ} {make : HatMaker E σ} {made : Hat E σ} {d : Declaration}
  {ds : List Declaration} {context next : Context E} {world after : σ} {composed result : Composition E}

theorem applyAll_of_apply (hget : registry.get? d.hat = some make) (hmake : make d.state d.config = .ok made)
    (happly : made.apply composed.context world = (.ok (next, fragment), after)) (rest : List Declaration) :
    Composition.applyAll registry (d :: rest) composed world =
      Composition.applyAll registry rest (composed.add d made.kind next fragment) after := by
  simp only [Composition.applyAll, hget, hmake, happly]

theorem fittings_of_apply (hget : registry.get? d.hat = some make) (hmake : make d.state d.config = .ok made)
    (happly : made.apply context world = (.ok (next, fragment), after)) (rest : List Declaration) :
    fittings registry (d :: rest) context world =
      ⟨d, context, world, next, after, fragment⟩ :: fittings registry rest next after := by
  simp only [fittings, hget, hmake, happly]

theorem fittings_of_unknown (hget : registry.get? d.hat = none) (rest : List Declaration) :
    fittings registry (d :: rest) context world = fittings registry rest context world := by
  simp only [fittings, hget]

/-- A composition that succeeds has put on the hat of the first declaration, or does not know it. -/
theorem cases_of_applyAll (h : Composition.applyAll registry (d :: ds) composed world = (.ok result, after)) :
    registry.get? d.hat = none
      ∧ Composition.applyAll registry ds (composed.warn [.unknownHat d.hat d.state]) world = (.ok result, after)
    ∨ ∃ make made next fragment between, registry.get? d.hat = some make ∧ make d.state d.config = .ok made
      ∧ made.apply composed.context world = (.ok (next, fragment), between)
      ∧ Composition.applyAll registry ds (composed.add d made.kind next fragment) between =
        (.ok result, after) := by
  unfold Composition.applyAll at h
  cases hget : registry.get? d.hat with
  | none =>
    simp only [hget] at h
    exact .inl ⟨rfl, h⟩
  | some make =>
    simp only [hget] at h
    cases hmake : make d.state d.config with
    | error error =>
      simp only [hmake] at h
      cases h
    | ok made =>
      simp only [hmake] at h
      rcases happly : made.apply composed.context world with ⟨outcome, between⟩
      simp only [happly] at h
      cases outcome with
      | error error => cases h
      | ok given => exact .inr ⟨make, made, given.1, given.2, between, rfl, hmake, happly, h⟩

/-- The composition lists the hats that were put on. -/
theorem applied_fittings (h : Composition.applyAll registry ds composed world = (.ok result, after)) :
    result.applied.map (fun a => (a.hat, a.state, a.fragment)) =
      composed.applied.map (fun a => (a.hat, a.state, a.fragment)) ++
        (fittings registry ds composed.context world).map fun f => (f.declaration.hat, f.state, f.fragment) := by
  induction ds generalizing composed world with
  | nil =>
    simp only [Composition.applyAll, Prod.mk.injEq, Except.ok.injEq] at h
    simp [fittings, h.1]
  | cons d rest ih =>
    rcases cases_of_applyAll h with ⟨hget, h⟩ | ⟨make, made, next, fragment, between, hget, hmake, happly, h⟩
    . rw [ih h, fittings_of_unknown hget]
      rfl
    . have happlied : (composed.add d made.kind next fragment).applied =
          composed.applied ++ [⟨d.hat, d.state, made.kind, fragment⟩] := rfl
      rw [ih h, fittings_of_apply hget hmake happly, happlied, List.map_append, List.append_assoc]
      rfl

theorem HatRegistry.get?_builtin (hat : String) :
    (HatRegistry.builtin : HatRegistry E σ).get? hat = if hat = Echo.name then some Echo.maker else none := by
  unfold HatRegistry.builtin
  rw [Table.get?_insert]
  rfl

end Turnstile
