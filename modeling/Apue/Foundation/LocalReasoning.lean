import Apue.Foundation.Program

/-! # Local reasoning about threads that share a state

A ghost value records what the threads know of the shared state. Each thread
sees its own part of it, which no step of another thread changes, so a program
can be verified against the part of its own thread alone.
-/

namespace Apue.Foundation

/-- How a kind of program runs, and what the threads keep track of: `valid` ties
the ghost value to the state, `localOf` is a thread's own part, and `allowed`
says which calls a thread may come to. -/
structure LocalLogic (Thread Command : Type) (Response : Command → Type)
    (State Ghost Local : Type) where
  step : Thread → (command : Command) → State → Response command → State → Prop
  valid : Ghost → State → Prop
  localOf : Thread → Ghost → Local
  allowed : Thread → Command → Local → Prop

namespace LocalLogic

variable {Thread Command State Ghost Local Result Next : Type}
  {Response : Command → Type}
  (logic : LocalLogic Thread Command Response State Ghost Local)

/-- `after` is a ghost value that a step of `thread` may lead to. -/
def Keeps (thread : Thread) (before after : Ghost) : Prop :=
  ∀ other, other ≠ thread → logic.localOf other after = logic.localOf other before

/-- From the local part `here`, whatever the other threads do between its calls,
the program only makes allowed calls, and it ends in a local part with `post`. -/
def Safe (thread : Thread) (post : Result → Local → Prop) :
    Program Command Response Result → Local → Prop
  | .done result, here => post result here
  | .call command next, here => logic.allowed thread command here ∧
      ∀ ghost state, logic.valid ghost state → logic.localOf thread ghost = here →
        ∀ response after, logic.step thread command state response after →
          ∃ ghost', logic.valid ghost' after ∧ logic.Keeps thread ghost ghost' ∧
            Safe thread post (next response) (logic.localOf thread ghost')

variable {logic} {thread : Thread} {post : Next → Local → Prop}

theorem Safe.bind {program : Program Command Response Result}
    {rest : Result → Program Command Response Next} {here : Local}
    (safe : logic.Safe thread (fun result there => logic.Safe thread post (rest result) there)
      program here) :
    logic.Safe thread post (program >>= rest) here := by
  induction program generalizing here with
  | done => exact safe
  | call command next hypothesis =>
      refine ⟨safe.1, fun ghost state valid same response after stepped => ?_⟩
      rcases safe.2 ghost state valid same response after stepped with
        ⟨ghost', valid', keeps, continued⟩
      exact ⟨ghost', valid', keeps, hypothesis response continued⟩

theorem Safe.mono {weaker : Next → Local → Prop}
    {program : Program Command Response Next} {here : Local}
    (safe : logic.Safe thread post program here)
    (implies : ∀ result there, post result there → weaker result there) :
    logic.Safe thread weaker program here := by
  induction program generalizing here with
  | done => exact implies _ _ safe
  | call command next hypothesis =>
      refine ⟨safe.1, fun ghost state valid same response after stepped => ?_⟩
      rcases safe.2 ghost state valid same response after stepped with
        ⟨ghost', valid', keeps, continued⟩
      exact ⟨ghost', valid', keeps, hypothesis response continued⟩

theorem Safe.perform {command : Command}
    {rest : Response command → Program Command Response Next} {here : Local}
    (permitted : logic.allowed thread command here)
    (moved : ∀ ghost state, logic.valid ghost state → logic.localOf thread ghost = here →
      ∀ response after, logic.step thread command state response after →
        ∃ ghost', logic.valid ghost' after ∧ logic.Keeps thread ghost ghost' ∧
          logic.Safe thread post (rest response) (logic.localOf thread ghost')) :
    logic.Safe thread post (Program.perform command >>= rest) here :=
  ⟨permitted, moved⟩

/-- A change of ghost values only may come before any call. -/
theorem Safe.shift {command : Command}
    {next : Response command → Program Command Response Next} {here there : Local}
    (safe : logic.Safe thread post (.call command next) there)
    (permitted : logic.allowed thread command here)
    (move : ∀ ghost state, logic.valid ghost state → logic.localOf thread ghost = here →
      ∃ ghost', logic.valid ghost' state ∧ logic.Keeps thread ghost ghost' ∧
        logic.localOf thread ghost' = there) :
    logic.Safe thread post (.call command next) here := by
  refine ⟨permitted, fun ghost state valid same response after stepped => ?_⟩
  rcases move ghost state valid same with ⟨moved, movedValid, movedKeeps, movedTo⟩
  rcases safe.2 moved state movedValid movedTo response after stepped with
    ⟨ghost', valid', keeps, continued⟩
  exact ⟨ghost', valid', fun other different =>
    (keeps other different).trans (movedKeeps other different), continued⟩

/-- A program that is safe alone stops only at calls that are allowed. -/
theorem Safe.run {Stop : Type}
    {handle : (command : Command) → State → Except Stop (Response command × State)}
    (handled : ∀ command state response after,
      handle command state = .ok (response, after) →
        logic.step thread command state response after)
    {program : Program Command Response Next} {ghost : Ghost} {state : State}
    (safe : logic.Safe thread post program (logic.localOf thread ghost))
    (valid : logic.valid ghost state) :
    (∃ result after ghost', program.run handle state = .ok (result, after) ∧
      logic.valid ghost' after ∧ logic.Keeps thread ghost ghost' ∧
        post result (logic.localOf thread ghost')) ∨
    ∃ stop command reached ghost', program.run handle state = .error stop ∧
      logic.valid ghost' reached ∧ logic.Keeps thread ghost ghost' ∧
        logic.allowed thread command (logic.localOf thread ghost') ∧
        handle command reached = .error stop := by
  induction program generalizing ghost state with
  | done result =>
      exact Or.inl ⟨result, state, ghost, rfl, valid, fun _ _ => rfl, safe⟩
  | call command next hypothesis =>
      rw [Program.run]
      cases answer : handle command state with
      | error stop =>
          exact Or.inr ⟨stop, command, state, ghost, rfl, valid, fun _ _ => rfl,
            safe.1, answer⟩
      | ok outcome =>
          rcases outcome with ⟨response, after⟩
          rcases safe.2 ghost state valid rfl response after
            (handled command state response after answer) with
            ⟨ghost', valid', keeps, continued⟩
          rcases hypothesis response continued valid' with
            ⟨result, last, ghost'', ran, valid'', keeps', holds⟩ |
            ⟨stop, stopped, reached, ghost'', ran, valid'', keeps', permitted, answer'⟩
          · exact Or.inl ⟨result, last, ghost'', ran, valid'', fun other different =>
              (keeps' other different).trans (keeps other different), holds⟩
          · exact Or.inr ⟨stop, stopped, reached, ghost'', ran, valid'',
              fun other different => (keeps' other different).trans (keeps other different),
              permitted, answer'⟩

/-! ## Pools -/

variable [DecidableEq Thread] (logic) (posts : Thread → Next → Local → Prop)

/-- Some ghost value is valid, and every thread is safe from its part of it. -/
def PoolSafe (pool : Pool Thread Command Response State Next) : Prop :=
  ∃ ghost, logic.valid ghost pool.state ∧
    ∀ thread, logic.Safe thread (posts thread) (pool.programs thread)
      (logic.localOf thread ghost)

variable {logic posts} {before after : Pool Thread Command Response State Next}

theorem PoolSafe.step (safe : logic.PoolSafe posts before)
    (stepped : Pool.Step logic.step before after) : logic.PoolSafe posts after := by
  rcases safe with ⟨ghost, valid, all⟩
  rcases stepped with ⟨thread, waiting, stepped⟩
  have mine := all thread
  rw [waiting] at mine
  rcases mine.2 ghost before.state valid rfl _ _ stepped with
    ⟨ghost', valid', keeps, continued⟩
  refine ⟨ghost', valid', fun other => ?_⟩
  by_cases same : other = thread
  · subst other
    simpa only [Function.update_self] using continued
  · simp only [Function.update_of_ne same, keeps other same]
    exact all other

theorem PoolSafe.reachable (safe : logic.PoolSafe posts before)
    (reached : Pool.Reachable logic.step before after) : logic.PoolSafe posts after := by
  induction reached with
  | refl => exact safe
  | tail _ stepped hypothesis => exact hypothesis.step stepped

end LocalLogic

end Apue.Foundation
