import Apue.Foundation.AtomicObject

/-! # Atomic objects whose operations leave a choice

As in an atomic object, a call takes effect in one step between its invocation and
its response, but `effect` may allow more than one result.
-/

namespace Apue.Foundation.AtomicObject

variable {Thread Object Call Return : Type} [DecidableEq Thread]
  (effect : Thread → Call → Object → Return → Object → Prop)

inductive Moves : AtomicObject Thread Object Call Return → Action Thread Call Return →
    AtomicObject Thread Object Call Return → Prop
  | invoke {state} {thread : Thread} (call : Call) (idle : state.pending thread = .idle) :
      Moves state (.event (.invoke thread call)) (state.setPending thread (.called call))
  | effect {state} {thread : Thread} {call : Call} {result : Return} {object : Object}
      (called : state.pending thread = .called call)
      (effected : effect thread call state.object result object) :
      Moves state (.effect thread)
        { object := object
          pending := Function.update state.pending thread (.effected result) }
  | respond {state} {thread : Thread} {result : Return}
      (effected : state.pending thread = .effected result) :
      Moves state (.event (.respond thread result)) (state.setPending thread .idle)

inductive Produces (first : AtomicObject Thread Object Call Return) :
    List (Action Thread Call Return) → AtomicObject Thread Object Call Return → Prop
  | refl : Produces first [] first
  | snoc {actions middle action last} (produced : Produces first actions middle)
      (moves : Moves effect middle action last) : Produces first (actions ++ [action]) last

/-- The atomic object can have come to `last` with this history. -/
def Explains (first last : AtomicObject Thread Object Call Return)
    (history : List (Event Thread Call Return)) : Prop :=
  ∃ actions, Produces effect first actions last ∧ actions.filterMap Action.visible = history

variable {effect} {first middle last : AtomicObject Thread Object Call Return}
  {history : List (Event Thread Call Return)} {action : Action Thread Call Return}

theorem Explains.refl : Explains effect first first [] := ⟨[], .refl, rfl⟩

theorem Explains.snoc (explains : Explains effect first middle history)
    (moves : Moves effect middle action last) :
    Explains effect first last (history ++ action.visible.toList) := by
  rcases explains with ⟨actions, produced, rfl⟩
  refine ⟨_, .snoc produced moves, ?_⟩
  rw [List.filterMap_append]
  cases action <;> rfl

end Apue.Foundation.AtomicObject
