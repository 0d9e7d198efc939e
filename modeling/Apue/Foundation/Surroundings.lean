import Apue.Foundation.LocalReasoning

/-! # Threads in surroundings that take part

Besides the calls of the threads something else may change the state they share,
as a kernel does that delivers a signal or completes a transfer.
-/

namespace Apue.Foundation

variable {Thread Command State Result : Type} {Response : Command → Type} [DecidableEq Thread]
  (step : Thread → (command : Command) → State → Response command → State → Prop)
  (surroundings : Pool Thread Command Response State Result → State → Prop)

/-- A thread makes its next call, or the surroundings change the state. -/
inductive Pool.StepIn : Pool Thread Command Response State Result →
    Pool Thread Command Response State Result → Prop
  | thread {before after : Pool Thread Command Response State Result}
      (stepped : Pool.Step step before after) : Pool.StepIn before after
  | surroundings {before : Pool Thread Command Response State Result} {state : State}
      (changed : surroundings before state) :
      Pool.StepIn before { before with state := state }

def Pool.ReachableIn : Pool Thread Command Response State Result →
    Pool Thread Command Response State Result → Prop :=
  Relation.ReflTransGen (Pool.StepIn step surroundings)

variable {step surroundings}

/-- With fewer steps there are fewer runs. -/
theorem Pool.Reachable.mono
    {fewer : Thread → (command : Command) → State → Response command → State → Prop}
    {before after : Pool Thread Command Response State Result}
    (implies : ∀ thread command state response after, fewer thread command state response after →
      step thread command state response after)
    (reached : Pool.Reachable fewer before after) : Pool.Reachable step before after := by
  induction reached with
  | refl => exact .refl
  | tail _ stepped hypothesis =>
      rcases stepped with ⟨thread, waiting, taken⟩
      exact hypothesis.tail (.take thread waiting (implies _ _ _ _ _ taken))

namespace LocalLogic

variable {Ghost Local : Type} {logic : LocalLogic Thread Command Response State Ghost Local}
  {posts : Thread → Result → Local → Prop}
  {surroundings : Pool Thread Command Response State Result → State → Prop}
  {before after : Pool Thread Command Response State Result}

/-- What the surroundings do leaves every thread where it stands. -/
def Tolerates (logic : LocalLogic Thread Command Response State Ghost Local)
    (posts : Thread → Result → Local → Prop)
    (surroundings : Pool Thread Command Response State Result → State → Prop) : Prop :=
  ∀ pool state ghost, logic.valid ghost pool.state →
    (∀ thread, logic.Safe thread (posts thread) (pool.programs thread)
      (logic.localOf thread ghost)) →
    surroundings pool state → logic.valid ghost state

theorem PoolSafe.stepIn (safe : logic.PoolSafe posts before)
    (tolerates : logic.Tolerates posts surroundings)
    (stepped : Pool.StepIn logic.step surroundings before after) : logic.PoolSafe posts after := by
  cases stepped with
  | thread stepped => exact safe.step stepped
  | surroundings changed =>
      rcases safe with ⟨ghost, valid, all⟩
      exact ⟨ghost, tolerates _ _ ghost valid all changed, all⟩

theorem PoolSafe.reachableIn (safe : logic.PoolSafe posts before)
    (tolerates : logic.Tolerates posts surroundings)
    (reached : Pool.ReachableIn logic.step surroundings before after) :
    logic.PoolSafe posts after := by
  induction reached with
  | refl => exact safe
  | tail _ stepped hypothesis => exact hypothesis.stepIn tolerates stepped

end LocalLogic

/-! ## Answers that are known -/

/-- The result of a program whose calls are answered by a function. -/
def Program.answered (answers : (command : Command) → Response command) :
    Program Command Response Result → Result
  | .done result => result
  | .call command next => (next (answers command)).answered answers

theorem Program.answered_bind {Next : Type} (answers : (command : Command) → Response command)
    (program : Program Command Response Result) (rest : Result → Program Command Response Next) :
    (program >>= rest).answered answers = (rest (program.answered answers)).answered answers := by
  induction program with
  | done => rfl
  | call command next hypothesis => exact hypothesis (answers command)

theorem Pool.ReachableIn.answered {answers : Thread → (command : Command) → Response command}
    {before after : Pool Thread Command Response State Result}
    (known : ∀ thread command state response after, step thread command state response after →
      response = answers thread command)
    (reached : Pool.ReachableIn step surroundings before after) (thread : Thread) :
    (after.programs thread).answered (answers thread) =
      (before.programs thread).answered (answers thread) := by
  induction reached with
  | refl => rfl
  | tail _ stepped hypothesis =>
      rw [← hypothesis]
      cases stepped with
      | surroundings _ => rfl
      | thread stepped =>
          rcases stepped with ⟨other, waiting, taken⟩
          dsimp only
          by_cases same : thread = other
          · subst same
            rw [Function.update_self, waiting, known _ _ _ _ _ taken]
            rfl
          · rw [Function.update_of_ne same]

/-! ## Schedules -/

/-- The next call of a thread, when the calls are answered by a function; `none` when
the thread has to wait or has come to its end. -/
def Pool.turn (perform : Thread → (command : Command) → State → Option (Response command × State))
    (pool : Pool Thread Command Response State Result) (thread : Thread) :
    Option (Pool Thread Command Response State Result) :=
  match pool.programs thread with
  | .done _ => none
  | .call command next => (perform thread command pool.state).map fun answer =>
      ⟨Function.update pool.programs thread (next answer.1), answer.2⟩

theorem Pool.step_of_turn
    {perform : Thread → (command : Command) → State → Option (Response command × State)}
    {before after : Pool Thread Command Response State Result} {thread : Thread}
    (turned : before.turn perform thread = some after) :
    Pool.Step (fun thread command state response after =>
      perform thread command state = some (response, after)) before after := by
  rw [Pool.turn] at turned
  split at turned
  · cases turned
  · rename_i command next waiting
    rcases Option.map_eq_some_iff.mp turned with ⟨⟨response, state⟩, answered, rfl⟩
    exact .take thread waiting answered

theorem Pool.reachable_of_turns
    {perform : Thread → (command : Command) → State → Option (Response command × State)}
    {before after : Pool Thread Command Response State Result} {threads : List Thread}
    (taken : threads.foldlM (fun pool thread => pool.turn perform thread) before = some after) :
    Pool.Reachable (fun thread command state response after =>
      perform thread command state = some (response, after)) before after := by
  induction threads generalizing before with
  | nil =>
      cases taken
      exact .refl
  | cons first rest hypothesis =>
      rw [List.foldlM_cons] at taken
      rcases Option.bind_eq_some_iff.mp taken with ⟨between, stepped, continued⟩
      exact Relation.ReflTransGen.head (Pool.step_of_turn stepped) (hypothesis continued)

/-- A schedule of turns and of events in the surroundings. -/
def Pool.schedule {Event : Type}
    (perform : Thread → (command : Command) → State → Option (Response command × State))
    (change : Event → State → Option State) (pool : Pool Thread Command Response State Result)
    (steps : List (Thread ⊕ Event)) : Option (Pool Thread Command Response State Result) :=
  steps.foldlM (fun pool => fun
    | .inl thread => pool.turn perform thread
    | .inr event => (change event pool.state).map fun state => { pool with state := state }) pool

theorem Pool.reachableIn_of_schedule {Event : Type}
    {perform : Thread → (command : Command) → State → Option (Response command × State)}
    {change : Event → State → Option State} {steps : List (Thread ⊕ Event)}
    {before after : Pool Thread Command Response State Result}
    (scheduled : before.schedule perform change steps = some after) :
    Pool.ReachableIn (fun thread command state response after =>
        perform thread command state = some (response, after))
      (fun pool state => ∃ event, change event pool.state = some state) before after := by
  induction steps generalizing before with
  | nil =>
      cases scheduled
      exact .refl
  | cons first rest hypothesis =>
      rw [Pool.schedule, List.foldlM_cons] at scheduled
      rcases Option.bind_eq_some_iff.mp scheduled with ⟨between, stepped, continued⟩
      apply Relation.ReflTransGen.head _ (hypothesis continued)
      cases first with
      | inl thread => exact .thread (Pool.step_of_turn stepped)
      | inr event =>
          rcases Option.map_eq_some_iff.mp stepped with ⟨state, changed, rfl⟩
          exact .surroundings ⟨event, changed⟩

end Apue.Foundation
