import Mathlib.Data.Finset.Max
import Mathlib.Logic.Function.Basic
import Mathlib.Logic.Relation

/-! # Programs that make system calls

A program returns a result or makes one call and goes on with the response. Its
own computation happens between the calls and is nobody else's business, so the
calls are the steps that programs can be interleaved at. `run` executes one
program alone; `Pool` lets any number of threads take turns.
-/

namespace Apue.Foundation

inductive Program (Command : Type) (Response : Command → Type) (Result : Type) : Type
  | done (result : Result)
  | call (command : Command)
      (next : Response command → Program Command Response Result)

namespace Program

variable {Command : Type} {Response : Command → Type} {Result Next : Type}

def bind : Program Command Response Result →
    (Result → Program Command Response Next) → Program Command Response Next
  | .done result, rest => rest result
  | .call command next, rest => .call command fun response => (next response).bind rest

instance : Monad (Program Command Response) where
  pure := .done
  bind := bind

/-- One call, with its response as the result. -/
def perform (command : Command) : Program Command Response (Response command) :=
  .call command .done

@[simp] theorem pure_eq (result : Result) :
    (pure result : Program Command Response Result) = .done result := rfl

@[simp] theorem done_bind (result : Result)
    (rest : Result → Program Command Response Next) :
    (Program.done result >>= rest) = rest result := rfl

@[simp] theorem call_bind (command : Command)
    (next : Response command → Program Command Response Result)
    (rest : Result → Program Command Response Next) :
    (Program.call command next >>= rest) =
      .call command fun response => next response >>= rest := rfl

@[simp] theorem perform_bind (command : Command)
    (rest : Response command → Program Command Response Next) :
    (perform command >>= rest) = .call command rest := rfl

theorem bind_done (program : Program Command Response Result) :
    (program >>= Program.done) = program := by
  induction program with
  | done => rfl
  | call command next hypothesis =>
      rw [call_bind]
      exact congrArg (Program.call command) (funext hypothesis)

theorem bind_assoc {Last : Type} (program : Program Command Response Result)
    (middle : Result → Program Command Response Next)
    (rest : Next → Program Command Response Last) :
    (program >>= middle >>= rest) = program >>= fun result => middle result >>= rest := by
  induction program with
  | done => rfl
  | call command next hypothesis =>
      simp only [call_bind, hypothesis]

instance : LawfulMonad (Program Command Response) :=
  LawfulMonad.mk' _ bind_done (fun _ _ => rfl) bind_assoc

/-- Run a program alone. The handler answers its calls or stops it. -/
def run {State Stop : Type}
    (handle : (command : Command) → State → Except Stop (Response command × State)) :
    Program Command Response Result → State → Except Stop (Result × State)
  | .done result, state => .ok (result, state)
  | .call command next, state =>
      match handle command state with
      | .ok (response, after) => (next response).run handle after
      | .error stop => .error stop

theorem run_bind {State Stop : Type}
    {handle : (command : Command) → State → Except Stop (Response command × State)}
    (program : Program Command Response Result)
    (rest : Result → Program Command Response Next) (state : State) :
    (program >>= rest).run handle state =
      match program.run handle state with
      | .ok (result, after) => (rest result).run handle after
      | .error stop => .error stop := by
  induction program generalizing state with
  | done result => rfl
  | call command next hypothesis =>
      rw [call_bind, run, run]
      cases handle command state with
      | ok outcome => exact hypothesis outcome.1 outcome.2
      | error stop => rfl

/-- Some calls are never made. -/
def Avoids (avoided : Command → Prop) : Program Command Response Result → Prop
  | .done _ => True
  | .call command next => ¬ avoided command ∧ ∀ response, (next response).Avoids avoided

theorem Avoids.bind {avoided : Command → Prop} {program : Program Command Response Result}
    {rest : Result → Program Command Response Next} (first : program.Avoids avoided)
    (second : ∀ result, (rest result).Avoids avoided) : (program >>= rest).Avoids avoided := by
  induction program with
  | done result => exact second result
  | call command next hypothesis =>
      exact ⟨first.1, fun response => hypothesis response (first.2 response)⟩

/-- What only the avoided calls change stays as it is. -/
theorem Avoids.run_keeps {State Stop Observed : Type}
    {handle : (command : Command) → State → Except Stop (Response command × State)}
    {avoided : Command → Prop} {observe : State → Observed}
    (keeps : ∀ command state response after, ¬ avoided command →
      handle command state = .ok (response, after) → observe after = observe state)
    {program : Program Command Response Result} (avoids : program.Avoids avoided)
    {state after : State} {result : Result}
    (ran : program.run handle state = .ok (result, after)) : observe after = observe state := by
  induction program generalizing state with
  | done value =>
      cases ran
      rfl
  | call command next hypothesis =>
      rw [run] at ran
      cases answered : handle command state with
      | ok outcome =>
          rw [answered] at ran
          rw [hypothesis outcome.1 (avoids.2 outcome.1) ran]
          exact keeps command state outcome.1 outcome.2 avoids.1 answered
      | error stop =>
          rw [answered] at ran
          cases ran

/-- Two handlers that answer the calls alike, up to a change of the states, run a
program alike. -/
theorem Avoids.run_map {State Other Stop OtherStop : Type}
    {handle : (command : Command) → State → Except Stop (Response command × State)}
    {handleOther : (command : Command) → Other → Except OtherStop (Response command × Other)}
    {avoided : Command → Prop} {change : State → Other} {changeStop : Stop → OtherStop}
    (alike : ∀ command state, ¬ avoided command → handleOther command (change state) =
      ((handle command state).map fun outcome => (outcome.1, change outcome.2)).mapError changeStop)
    {program : Program Command Response Result} (avoids : program.Avoids avoided)
    (state : State) : program.run handleOther (change state) =
      ((program.run handle state).map fun outcome => (outcome.1, change outcome.2)).mapError
        changeStop := by
  induction program generalizing state with
  | done value => rfl
  | call command next hypothesis =>
      rw [run, run, alike command state avoids.1]
      cases handle command state with
      | ok outcome => exact hypothesis outcome.1 (avoids.2 outcome.1) outcome.2
      | error stop => rfl

theorem avoids_nothing (program : Program Command Response Result) :
    program.Avoids fun _ => False := by
  induction program with
  | done value => trivial
  | call command next hypothesis => exact ⟨id, hypothesis⟩

end Program

/-! ## Threads that take turns -/

section Pool

variable {Thread Command State Result : Type} {Response : Command → Type}

/-- What is left of every thread's program, and the state they share. -/
structure Pool (Thread Command : Type) (Response : Command → Type)
    (State Result : Type) where
  programs : Thread → Program Command Response Result
  state : State

variable [DecidableEq Thread]
  (step : Thread → (command : Command) → State → Response command → State → Prop)

/-- One thread makes its next call. -/
inductive Pool.Step : Pool Thread Command Response State Result →
    Pool Thread Command Response State Result → Prop
  | take (thread : Thread) {before : Pool Thread Command Response State Result}
      {command : Command} {next : Response command → Program Command Response Result}
      {response : Response command} {state : State}
      (waiting : before.programs thread = .call command next)
      (stepped : step thread command before.state response state) :
      Pool.Step before
        ⟨Function.update before.programs thread (next response), state⟩

def Pool.Reachable : Pool Thread Command Response State Result →
    Pool Thread Command Response State Result → Prop :=
  Relation.ReflTransGen (Pool.Step step)

end Pool

/-- Threads that wait for one another along increasing ranks never wait in a
circle: no group of them is such that each waits for another of the group. -/
theorem no_waiting_circle {Thread : Type} {waits : Thread → Thread → Prop}
    {rank : Thread → Nat} {group : Finset Thread}
    (increasing : ∀ thread ∈ group, ∀ other ∈ group, waits thread other →
      rank thread < rank other)
    (nonempty : group.Nonempty) :
    ∃ thread ∈ group, ∀ other ∈ group, ¬ waits thread other := by
  rcases group.exists_max_image rank nonempty with ⟨thread, member, greatest⟩
  refine ⟨thread, member, fun other among waiting => ?_⟩
  exact absurd (increasing thread member other among waiting)
    (Nat.not_lt.mpr (greatest other among))

end Apue.Foundation
