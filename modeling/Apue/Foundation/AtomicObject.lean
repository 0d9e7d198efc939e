import Mathlib.Logic.Function.Basic

/-! # Objects with atomic operations

`apply` is the sequential meaning of an object: the result of a call and the
object after it. In an atomic object a call takes effect in one step, somewhere
between its invocation and its response. A history of invocations and responses
is linearizable when an atomic object can produce it.
-/

namespace Apue.Foundation

/-- What a thread has under way. -/
inductive Pending (Call Return : Type)
  | idle
  | called (call : Call)
  | effected (result : Return)

inductive Event (Thread Call Return : Type)
  | invoke (thread : Thread) (call : Call)
  | respond (thread : Thread) (result : Return)

/-- The steps of an atomic object. An `effect` is not seen outside. -/
inductive Action (Thread Call Return : Type)
  | event (event : Event Thread Call Return)
  | effect (thread : Thread)

def Action.visible {Thread Call Return : Type} :
    Action Thread Call Return → Option (Event Thread Call Return)
  | .event seen => some seen
  | .effect _ => none

def Event.thread {Thread Call Return : Type} : Event Thread Call Return → Thread
  | .invoke thread _ => thread
  | .respond thread _ => thread

structure AtomicObject (Thread Object Call Return : Type) where
  object : Object
  pending : Thread → Pending Call Return

namespace AtomicObject

variable {Thread Object Call Return : Type} [DecidableEq Thread]

def start (object : Object) : AtomicObject Thread Object Call Return where
  object := object
  pending := fun _ => .idle

def setPending (state : AtomicObject Thread Object Call Return) (thread : Thread)
    (pending : Pending Call Return) : AtomicObject Thread Object Call Return :=
  { state with pending := Function.update state.pending thread pending }

variable (apply : Call → Object → Return × Object)

inductive Acts : AtomicObject Thread Object Call Return → Action Thread Call Return →
    AtomicObject Thread Object Call Return → Prop
  | invoke {state} {thread : Thread} (call : Call)
      (idle : state.pending thread = .idle) :
      Acts state (.event (.invoke thread call)) (state.setPending thread (.called call))
  | effect {state} {thread : Thread} {call : Call}
      (called : state.pending thread = .called call) :
      Acts state (.effect thread)
        { object := (apply call state.object).2
          pending := Function.update state.pending thread
            (.effected (apply call state.object).1) }
  | respond {state} {thread : Thread} {result : Return}
      (effected : state.pending thread = .effected result) :
      Acts state (.event (.respond thread result)) (state.setPending thread .idle)

inductive Runs (first : AtomicObject Thread Object Call Return) :
    List (Action Thread Call Return) → AtomicObject Thread Object Call Return → Prop
  | refl : Runs first [] first
  | snoc {actions middle action last} (ran : Runs first actions middle)
      (acts : Acts apply middle action last) : Runs first (actions ++ [action]) last

/-- An atomic object that starts with `object` can produce the history. -/
def Linearizable (object : Object) (history : List (Event Thread Call Return)) : Prop :=
  ∃ actions last, Runs apply (start object) actions last ∧
    actions.filterMap Action.visible = history

/-! ## One thread alone -/

/-- The results of calls that are made one after the other. -/
def results : List Call → Object → List Return
  | [], _ => []
  | call :: calls, object =>
      (apply call object).1 :: results calls (apply call object).2

def finalObject (calls : List Call) (object : Object) : Object :=
  calls.foldl (fun object call => (apply call object).2) object

/-- The history of one thread whose calls return `returns`. -/
def sequential (thread : Thread) (calls : List Call) (returns : List Return) :
    List (Event Thread Call Return) :=
  (calls.zip returns).flatMap fun pair =>
    [.invoke thread pair.1, .respond thread pair.2]

variable {apply}

theorem finalObject_concat (calls : List Call) (call : Call) (object : Object) :
    finalObject apply (calls ++ [call]) object =
      (apply call (finalObject apply calls object)).2 := by
  rw [finalObject, List.foldl_append]
  rfl

theorem results_concat (calls : List Call) (call : Call) (object : Object) :
    results apply (calls ++ [call]) object =
      results apply calls object ++ [(apply call (finalObject apply calls object)).1] := by
  induction calls generalizing object with
  | nil => rfl
  | cons first calls hypothesis =>
      rw [List.cons_append, results, hypothesis]
      rfl

theorem results_length (calls : List Call) (object : Object) :
    (results apply calls object).length = calls.length := by
  induction calls generalizing object with
  | nil => rfl
  | cons first calls hypothesis => rw [results, List.length_cons, hypothesis, List.length_cons]

omit [DecidableEq Thread] in
theorem sequential_concat (thread : Thread) {calls : List Call} {returns : List Return}
    (same : calls.length = returns.length) (call : Call) (result : Return) :
    sequential thread (calls ++ [call]) (returns ++ [result]) =
      sequential thread calls returns ++ [.invoke thread call, .respond thread result] := by
  rw [sequential, List.zip_append same, List.flatMap_append]
  rfl

omit [DecidableEq Thread] in
theorem sequential_length (thread : Thread) (calls : List Call) (returns : List Return) :
    (sequential thread calls returns).length = 2 * min calls.length returns.length := by
  rw [← List.length_zip, sequential]
  induction calls.zip returns with
  | nil => rfl
  | cons pair pairs hypothesis =>
      rw [List.flatMap_cons, List.length_append, hypothesis, List.length_cons]
      simp only [List.length_cons, List.length_nil]
      omega

omit [DecidableEq Thread] in
theorem sequential_injective (thread : Thread) :
    ∀ {calls calls' : List Call} {returns returns' : List Return},
      calls.length = returns.length → calls'.length = returns'.length →
      sequential thread calls returns = sequential thread calls' returns' →
      calls = calls' ∧ returns = returns'
  | [], [], [], [], _, _, _ => ⟨rfl, rfl⟩
  | [], _ :: _, [], _ :: _, _, _, same => nomatch same
  | _ :: _, [], _ :: _, [], _, _, same => nomatch same
  | call :: calls, call' :: calls', result :: returns, result' :: returns', left, right,
      same => by
      simp only [sequential, List.zip_cons_cons, List.flatMap_cons, List.cons_append,
        List.nil_append, List.cons.injEq, Event.invoke.injEq, Event.respond.injEq,
        true_and] at same
      rcases same with ⟨sameCall, sameResult, rest⟩
      rcases sequential_injective thread (Nat.succ.inj left) (Nat.succ.inj right) rest with
        ⟨sameCalls, sameReturns⟩
      rw [sameCall, sameResult, sameCalls, sameReturns]
      exact ⟨rfl, rfl⟩

variable (apply)

/-- What the runs of one thread alone come to: the calls that have responded,
and what is under way. -/
inductive Alone (thread : Thread) (object : Object) :
    List (Event Thread Call Return) → AtomicObject Thread Object Call Return → Prop
  | idle {state} (calls : List Call)
      (reached : state.object = finalObject apply calls object)
      (pending : state.pending thread = .idle) :
      Alone thread object (sequential thread calls (results apply calls object)) state
  | called {state} (calls : List Call) (call : Call)
      (reached : state.object = finalObject apply calls object)
      (pending : state.pending thread = .called call) :
      Alone thread object (sequential thread calls (results apply calls object) ++
        [.invoke thread call]) state
  | effected {state} (calls : List Call) (call : Call)
      (reached : state.object = finalObject apply (calls ++ [call]) object)
      (pending : state.pending thread =
        .effected (apply call (finalObject apply calls object)).1) :
      Alone thread object (sequential thread calls (results apply calls object) ++
        [.invoke thread call]) state

variable {apply} {object : Object} {thread : Thread}

theorem Alone.acts {history : List (Event Thread Call Return)}
    {before after : AtomicObject Thread Object Call Return}
    {action : Action Thread Call Return}
    (alone : Alone apply thread object history before)
    (others : ∀ other, other ≠ thread → before.pending other = .idle)
    (acts : Acts apply before action after)
    (only : ∀ event, action.visible = some event → event.thread = thread) :
    Alone apply thread object (history ++ action.visible.toList) after ∧
      ∀ other, other ≠ thread → after.pending other = .idle := by
  cases acts with
  | @invoke actor call idle =>
      have mine : actor = thread := only _ rfl
      subst mine
      refine ⟨?_, fun other different =>
        (Function.update_of_ne different _ _).trans (others other different)⟩
      cases alone with
      | idle calls reached pending =>
          exact .called calls call reached (Function.update_self _ _ _)
      | called calls call' reached pending => cases idle.symm.trans pending
      | effected calls call' reached pending => cases idle.symm.trans pending
  | @effect actor call called =>
      have mine : actor = thread := by
        by_contra different
        cases (others actor different).symm.trans called
      subst mine
      refine ⟨?_, fun other different =>
        (Function.update_of_ne different _ _).trans (others other different)⟩
      rw [Action.visible, Option.toList_none, List.append_nil]
      cases alone with
      | idle calls reached pending => cases pending.symm.trans called
      | called calls call' reached pending =>
          cases pending.symm.trans called
          apply Alone.effected calls call
          · simp only [finalObject_concat, reached]
          · simp only [Function.update_self, reached]
      | effected calls call' reached pending => cases pending.symm.trans called
  | @respond actor result effected =>
      have mine : actor = thread := only _ rfl
      subst mine
      refine ⟨?_, fun other different =>
        (Function.update_of_ne different _ _).trans (others other different)⟩
      cases alone with
      | idle calls reached pending => cases pending.symm.trans effected
      | called calls call reached pending => cases pending.symm.trans effected
      | effected calls call reached pending =>
          cases pending.symm.trans effected
          rw [Action.visible, Option.toList_some, List.append_assoc]
          have complete : sequential actor calls (results apply calls object) ++
              ([.invoke actor call] ++
                [.respond actor (apply call (finalObject apply calls object)).1]) =
              sequential actor (calls ++ [call]) (results apply (calls ++ [call]) object) := by
            rw [results_concat, sequential_concat _ (results_length _ _).symm]
            rfl
          rw [complete]
          exact .idle _ reached (Function.update_self _ _ _)

theorem Runs.alone {actions : List (Action Thread Call Return)}
    {last : AtomicObject Thread Object Call Return}
    (runs : Runs apply (start object) actions last)
    (only : ∀ event ∈ actions.filterMap Action.visible, event.thread = thread) :
    Alone apply thread object (actions.filterMap Action.visible) last ∧
      ∀ other, other ≠ thread → last.pending other = .idle := by
  induction runs with
  | refl => exact ⟨.idle [] rfl rfl, fun _ _ => rfl⟩
  | @snoc actions middle action last ran acts hypothesis =>
      rw [List.filterMap_append] at only ⊢
      have before := hypothesis fun event member => only event (List.mem_append_left _ member)
      have visible : [action].filterMap Action.visible = action.visible.toList := by
        cases action <;> rfl
      rw [visible] at only ⊢
      exact before.1.acts before.2 acts fun event seen => only event
        (List.mem_append_right _ (by rw [seen]; exact List.mem_singleton.mpr rfl))

/-- A thread that is alone gets the results of the sequential object, and leaves
it as the calls do. -/
theorem Runs.sequential {actions : List (Action Thread Call Return)}
    {last : AtomicObject Thread Object Call Return} {calls : List Call} {returns : List Return}
    (runs : Runs apply (start object) actions last) (same : calls.length = returns.length)
    (history : actions.filterMap Action.visible = sequential thread calls returns) :
    returns = results apply calls object ∧ last.object = finalObject apply calls object := by
  have only : ∀ event ∈ actions.filterMap Action.visible, event.thread = thread := by
    intro event member
    rw [history, AtomicObject.sequential] at member
    rcases List.mem_flatMap.mp member with ⟨pair, _, among⟩
    rcases List.mem_cons.mp among with rfl | among
    · rfl
    · rw [List.mem_singleton.mp among]
      rfl
  have alone := (runs.alone only).1
  rw [history] at alone
  have odd : ∀ (calls' : List Call) (call : Call),
      AtomicObject.sequential thread calls returns ≠
        AtomicObject.sequential thread calls' (results apply calls' object) ++
          [.invoke thread call] := by
    intro calls' call equal
    have lengths := congrArg List.length equal
    rw [List.length_append, sequential_length, sequential_length] at lengths
    simp only [List.length_singleton] at lengths
    omega
  generalize written : AtomicObject.sequential thread calls returns = history' at alone
  cases alone with
  | idle calls' reached _ =>
      rcases sequential_injective thread same (results_length _ _).symm written with
        ⟨rfl, equal⟩
      exact ⟨equal, reached⟩
  | called calls' call _ _ => exact absurd written (odd calls' call)
  | effected calls' call _ _ => exact absurd written (odd calls' call)

end AtomicObject

end Apue.Foundation
