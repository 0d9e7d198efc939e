import Apue.Foundation.Always

/-! # Programs among others

Between two calls of a program the others may take steps. What a program can rely
on and what it guarantees for its own steps are relations on the states.
-/

namespace Apue.Foundation

/-- What the others do between the calls of a program, what the program does by a
call itself, and which calls have to have an answer where they are made. -/
structure Conduct (Command State : Type) where
  rely : State → State → Prop
  guarantee : State → State → Prop
  answered : Command → Prop

namespace Conduct

variable {Command State : Type} {Response : Command → Type} (conduct : Conduct Command State)
  (step : (command : Command) → State → Response command → State → Prop)

/-- A call behind steps of the others. -/
def Step (command : Command) (before : State) (response : Response command) (after : State) :
    Prop :=
  ∃ between, conduct.rely before between ∧ step command between response after

def Allows (command : Command) (state : State) : Prop :=
  ∀ between, conduct.rely state between →
    (conduct.answered command → ∃ response after, step command between response after) ∧
      ∀ response after, step command between response after → conduct.guarantee between after

/-- A program keeps to a conduct, and its results are right. -/
abbrev Follows {Result : Type} (post : Result → State → Prop)
    (program : Program Command Response Result) (state : State) : Prop :=
  program.Always (conduct.Step step) (conduct.Allows step) post state

/-- The conduct of a program that runs alone. -/
def alone (State : Type) (answered : Command → Prop) : Conduct Command State where
  rely := Eq
  guarantee := fun _ _ => True
  answered := answered

variable {conduct step} {Result Next : Type} {post : Result → State → Prop}
  {state : State} {command : Command}

/-- One call and the rest of the program. -/
theorem Follows.call {rest : Response command → Program Command Response Result}
    (answers : conduct.answered command → ∀ between, conduct.rely state between →
      ∃ response after, step command between response after)
    (continued : ∀ between, conduct.rely state between → ∀ response after,
      step command between response after → conduct.guarantee between after ∧
        conduct.Follows step post (rest response) after) :
    conduct.Follows step post (Program.perform command >>= rest) state := by
  constructor
  · intro between relied
    exact ⟨fun answered => answers answered between relied, fun response after stepped =>
      (continued between relied response after stepped).1⟩
  · rintro response after ⟨between, relied, stepped⟩
    exact (continued between relied response after stepped).2

/-- A call whose answer is known and that changes nothing. -/
theorem Follows.look {rest : Response command → Program Command Response Result}
    {holds : State → Prop} {answer : Response command}
    (stable : ∀ before between, conduct.rely before between → holds before → holds between)
    (quiet : ∀ state, conduct.guarantee state state)
    (answers : ∀ state, holds state → step command state answer state ∧
      ∀ response after, step command state response after → response = answer ∧ after = state)
    (here : holds state)
    (continued : ∀ state, holds state → conduct.Follows step post (rest answer) state) :
    conduct.Follows step post (Program.perform command >>= rest) state := by
  apply Follows.call
  · intro _ between relied
    exact ⟨answer, between, (answers between (stable _ _ relied here)).1⟩
  · intro between relied response after stepped
    have holdsBetween := stable _ _ relied here
    rcases (answers between holdsBetween).2 response after stepped with ⟨rfl, rfl⟩
    exact ⟨quiet _, continued _ holdsBetween⟩

theorem Follows.bind {program : Program Command Response Next}
    {rest : Next → Program Command Response Result}
    (first : conduct.Follows step (fun result after => conduct.Follows step post (rest result) after)
      program state) : conduct.Follows step post (program >>= rest) state :=
  Program.Always.bind first

/-- A program that runs alone has no others to rely on. -/
theorem Follows.always {program : Program Command Response Result}
    (follows : conduct.Follows step post program state)
    (reflexive : ∀ state, conduct.rely state state) :
    program.Always step (fun command state => conduct.answered command →
      ∃ response after, step command state response after) post state := by
  apply Program.Always.mono_allowed
  · apply Program.Always.mono_step follows
    exact fun command state response after stepped => ⟨state, reflexive state, stepped⟩
  · exact fun command state allowed answered => (allowed state (reflexive state)).1 answered

/-- What a program that runs alone does from its first call to its last. -/
theorem Follows.guaranteed {guarantee : State → State → Prop} {answered : Command → Prop}
    {program : Program Command Response Result} (reflexive : ∀ state, guarantee state state)
    (transitive : ∀ first second third, guarantee first second → guarantee second third →
      guarantee first third)
    (follows : (Conduct.mk Eq guarantee answered).Follows step post program state) :
    (Conduct.mk Eq guarantee answered).Follows step
      (fun result after => post result after ∧ guarantee state after) program state := by
  induction program generalizing state with
  | done result => exact ⟨follows, reflexive state⟩
  | call command next hypothesis =>
      refine ⟨follows.1, fun response after stepped => ?_⟩
      apply Program.Always.mono (hypothesis response (follows.2 response after stepped))
      rintro result last ⟨holds, guaranteed⟩
      rcases stepped with ⟨between, rfl, stepped⟩
      exact ⟨holds, transitive _ _ _ ((follows.1 _ rfl).2 response after stepped) guaranteed⟩

end Conduct

end Apue.Foundation
