/-! # Runs of a partial step function

A machine takes a list of actions one after the other. `none` ends a run: the
program exits, or what it does is undefined.
-/

namespace Apue.Foundation

section Run

variable {State Action : Type} (step : State → Action → Option State)

/-- `guard` holds at every step that the run takes. -/
def EveryStep (guard : State → Action → Prop) : State → List Action → Prop
  | _, [] => True
  | state, action :: actions => guard state action ∧
      ∀ next, step state action = some next → EveryStep guard next actions

/-- `property` holds in every state that the run reaches. -/
def EveryState (property : State → Prop) : State → List Action → Prop
  | state, [] => property state
  | state, action :: actions => property state ∧
      ∀ next, step state action = some next → EveryState property next actions

/-- The run takes all its actions. -/
def Completes : State → List Action → Prop
  | _, [] => True
  | state, action :: actions =>
      ∃ next, step state action = some next ∧ Completes next actions

instance decidableEveryStep (guard : State → Action → Prop)
    [∀ state action, Decidable (guard state action)] :
    ∀ (state : State) (actions : List Action), Decidable (EveryStep step guard state actions)
  | _, [] => isTrue trivial
  | state, action :: actions =>
      have : Decidable (∀ next, step state action = some next →
          EveryStep step guard next actions) :=
        match step state action with
        | none => isTrue nofun
        | some next =>
            have := decidableEveryStep guard next actions
            decidable_of_iff (EveryStep step guard next actions)
              ⟨fun later _ equal => Option.some.inj equal ▸ later, fun all => all next rfl⟩
      inferInstanceAs (Decidable (_ ∧ _))

variable {step} {guard other : State → Action → Prop} {property weaker : State → Prop}

/-- A guard that does not look at the state. -/
theorem EveryStep.of_forall : ∀ {actions : List Action} {state : State},
    (∀ action ∈ actions, ∀ state, guard state action) → EveryStep step guard state actions
  | [], _, _ => trivial
  | _ :: _, _, always => ⟨always _ List.mem_cons_self _, fun _ _ =>
      .of_forall fun action member => always action (List.mem_cons_of_mem _ member)⟩

theorem EveryState.head {state : State} {actions : List Action}
    (holds : EveryState step property state actions) : property state := by
  cases actions with
  | nil => exact holds
  | cons => exact holds.1

theorem EveryState.mono (implies : ∀ state, property state → weaker state) :
    ∀ {actions : List Action} {state : State},
      EveryState step property state actions → EveryState step weaker state actions
  | [], _, holds => implies _ holds
  | _ :: _, _, ⟨here, later⟩ =>
      ⟨implies _ here, fun next stepped => (later next stepped).mono implies⟩

theorem EveryState.last : ∀ {actions : List Action} {state final : State},
    EveryState step property state actions →
    actions.foldlM step state = some final → property final
  | [], _, _, holds, ran => Option.some.inj ran ▸ holds
  | action :: _, state, _, holds, ran => by
      rw [List.foldlM_cons] at ran
      rcases Option.bind_eq_some_iff.mp ran with ⟨next, stepped, rest⟩
      exact (holds.2 next stepped).last rest

theorem EveryStep.and : ∀ {actions : List Action} {state : State},
    EveryStep step guard state actions → EveryStep step other state actions →
    EveryStep step (fun state action => guard state action ∧ other state action)
      state actions
  | [], _, _, _ => trivial
  | _ :: _, _, ⟨leftHere, left⟩, ⟨rightHere, right⟩ =>
      ⟨⟨leftHere, rightHere⟩, fun next stepped =>
        (left next stepped).and (right next stepped)⟩

/-- An invariant that the guarded steps preserve holds throughout the run. -/
theorem everyState_of_invariant
    (preserved : ∀ state action next, property state → guard state action →
      step state action = some next → property next) :
    ∀ {actions : List Action} {state : State}, property state →
      EveryStep step guard state actions → EveryState step property state actions
  | [], _, holds, _ => holds
  | action :: _, state, holds, ⟨here, later⟩ =>
      ⟨holds, fun next stepped => everyState_of_invariant preserved
        (preserved state action next holds here stepped) (later next stepped)⟩

/-- What an invariant and the guard say of a step holds of all the steps. -/
theorem everyStep_of_invariant
    (preserved : ∀ state action next, property state → guard state action →
      step state action = some next → property next)
    (implies : ∀ state action, property state → guard state action → other state action) :
    ∀ {actions : List Action} {state : State}, property state →
      EveryStep step guard state actions → EveryStep step other state actions
  | [], _, _, _ => trivial
  | action :: _, state, holds, ⟨here, later⟩ =>
      ⟨implies state action holds here, fun next stepped => everyStep_of_invariant preserved implies
        (preserved state action next holds here stepped) (later next stepped)⟩

/-- Under an invariant no guarded step gets stuck, so the run takes them all. -/
theorem completes_of_invariant
    (progress : ∀ state action, property state → guard state action →
      ∃ next, step state action = some next ∧ property next) :
    ∀ {actions : List Action} {state : State}, property state →
      EveryStep step guard state actions → Completes step state actions
  | [], _, _, _ => trivial
  | action :: _, state, holds, ⟨here, later⟩ =>
      have ⟨next, stepped, nextHolds⟩ := progress state action holds here
      ⟨next, stepped, completes_of_invariant progress nextHolds (later next stepped)⟩

/-- A run that is followed step by step by a simpler one. -/
theorem exists_run_of_simulation {Abstract : Type} {relates : State → Abstract → Prop}
    {effect : Abstract → Action → Abstract}
    (progress : ∀ state abstract action, relates state abstract → guard state action →
      ∃ next, step state action = some next ∧ relates next (effect abstract action)) :
    ∀ {actions : List Action} {state : State} {abstract : Abstract}, relates state abstract →
      EveryStep step guard state actions →
        ∃ last, actions.foldlM step state = some last ∧ relates last (actions.foldl effect abstract)
  | [], state, _, related, _ => ⟨state, rfl, related⟩
  | action :: actions, state, abstract, related, ⟨here, later⟩ => by
      rcases progress state abstract action related here with ⟨next, stepped, relatedNext⟩
      rcases exists_run_of_simulation progress relatedNext (later next stepped) with
        ⟨last, ran, relatedLast⟩
      refine ⟨last, ?_, relatedLast⟩
      rw [List.foldlM_cons, stepped]
      exact ran

end Run

end Apue.Foundation
