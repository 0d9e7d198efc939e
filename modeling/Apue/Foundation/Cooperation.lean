import Apue.Foundation.Endings
import Apue.Foundation.RelyGuarantee

/-! # Threads that keep to their conducts

What a thread guarantees for its own steps is what each of the others relies on, so
that every thread can be looked at alone.
-/

namespace Apue.Foundation

variable {Thread Command State Result : Type} {Response : Command → Type}

namespace Conduct

/-- A program that has waited goes on as it would have. -/
theorem Follows.relied {conduct : Conduct Command State}
    {step : (command : Command) → State → Response command → State → Prop}
    {post : Result → State → Prop} {program : Program Command Response Result} {state later : State}
    (follows : conduct.Follows step post program state) (relied : conduct.rely state later)
    (transitive : ∀ first second third, conduct.rely first second → conduct.rely second third →
      conduct.rely first third)
    (stable : ∀ result, post result state → post result later) :
    conduct.Follows step post program later := by
  cases program with
  | done result => exact stable result follows
  | call command next =>
      constructor
      · intro between more
        exact follows.1 between (transitive _ _ _ relied more)
      · rintro response after ⟨between, more, stepped⟩
        exact follows.2 response after ⟨between, transitive _ _ _ relied more, stepped⟩

/-- A program that keeps to a conduct keeps to a wider one, as far as what it can rely on
there and what holds meanwhile allow. -/
theorem Follows.within {inner outer : Conduct Command State}
    {step : (command : Command) → State → Response command → State → Prop}
    {post : Result → State → Prop} {holds : State → Prop}
    (relied : ∀ before between, holds before → outer.rely before between →
      holds between ∧ inner.rely before between)
    (guaranteed : ∀ before after, holds before → inner.guarantee before after →
      outer.guarantee before after ∧ holds after)
    (answered : ∀ command, outer.answered command → inner.answered command)
    {program : Program Command Response Result} {state : State}
    (follows : inner.Follows step post program state) (here : holds state) :
    outer.Follows step (fun result after => post result after ∧ holds after) program state := by
  induction program generalizing state with
  | done result => exact ⟨follows, here⟩
  | call command next hypothesis =>
      constructor
      · intro between others
        rcases relied _ _ here others with ⟨holdsBetween, innerOthers⟩
        rcases follows.1 _ innerOthers with ⟨answers, guarantees⟩
        exact ⟨fun isAnswered => answers (answered command isAnswered), fun response after stepped =>
          (guaranteed _ _ holdsBetween (guarantees response after stepped)).1⟩
      · rintro response after ⟨between, others, stepped⟩
        rcases relied _ _ here others with ⟨holdsBetween, innerOthers⟩
        apply hypothesis response
        · exact follows.2 response after ⟨between, innerOthers, stepped⟩
        · exact (guaranteed _ _ holdsBetween
            ((follows.1 _ innerOthers).2 response after stepped)).2

variable (conducts : Thread → Conduct Command State)
  (steps : Thread → (command : Command) → State → Response command → State → Prop)
  (posts : Thread → Result → State → Prop)

/-- What a thread guarantees is what each of the others relies on, and what a thread
ends with stays when the others go on. -/
structure Compatible : Prop where
  reflexive : ∀ thread state, (conducts thread).rely state state
  transitive : ∀ thread first second third, (conducts thread).rely first second →
    (conducts thread).rely second third → (conducts thread).rely first third
  others : ∀ thread other state after, other ≠ thread → (conducts other).guarantee state after →
    (conducts thread).rely state after
  stable : ∀ thread result state after, posts thread result state →
    (conducts thread).rely state after → posts thread result after

/-- Every thread keeps to its conduct, from where it stands. -/
def PoolFollows (pool : Pool Thread Command Response State Result) : Prop :=
  ∀ thread, (conducts thread).Follows (steps thread) (posts thread) (pool.programs thread) pool.state

variable {conducts steps posts} {before after : Pool Thread Command Response State Result}

theorem PoolFollows.ended (follows : PoolFollows conducts steps posts after) {thread : Thread}
    {result : Result} (ended : after.programs thread = .done result) :
    posts thread result after.state := by
  have mine := follows thread
  rw [ended] at mine
  exact mine

variable [DecidableEq Thread]

theorem PoolFollows.step (follows : PoolFollows conducts steps posts before)
    (compatible : Compatible conducts posts) (stepped : Pool.Step steps before after) :
    PoolFollows conducts steps posts after := by
  cases stepped with
  | @take thread _ command next response state waiting stepped =>
      have mine := follows thread
      rw [waiting] at mine
      have guaranteed := (mine.1 _ (compatible.reflexive thread _)).2 response state stepped
      intro other
      by_cases same : other = thread
      · subst same
        dsimp only
        rw [Function.update_self]
        exact mine.2 response state ⟨_, compatible.reflexive other _, stepped⟩
      · dsimp only
        rw [Function.update_of_ne same]
        have relied := compatible.others other thread _ _ (Ne.symm same) guaranteed
        exact (follows other).relied relied (compatible.transitive other)
          fun result ended => compatible.stable other result _ _ ended relied

theorem PoolFollows.reachable (follows : PoolFollows conducts steps posts before)
    (compatible : Compatible conducts posts) (reached : Pool.Reachable steps before after) :
    PoolFollows conducts steps posts after := by
  induction reached with
  | refl => exact follows
  | tail _ stepped hypothesis => exact hypothesis.step compatible stepped

/-- A thread whose next call has to have an answer can make a step. -/
theorem PoolFollows.can_step (follows : PoolFollows conducts steps posts before)
    (compatible : Compatible conducts posts) {thread : Thread} {command : Command}
    {next : Response command → Program Command Response Result}
    (waiting : before.programs thread = .call command next)
    (answered : (conducts thread).answered command) : ∃ after, Pool.Step steps before after := by
  have mine := follows thread
  rw [waiting] at mine
  rcases (mine.1 _ (compatible.reflexive thread _)).1 answered with ⟨response, state, stepped⟩
  exact ⟨_, .take thread waiting stepped⟩

end Conduct

/-! ## Every run of a pool comes to its end -/

section Ends

variable [DecidableEq Thread]
  (steps : Thread → (command : Command) → State → Response command → State → Prop)

/-- Whatever the order of the steps is, the threads come to their ends, and then the
state is right. -/
structure Pool.Returns (post : State → Prop) (pool : Pool Thread Command Response State Result) :
    Prop where
  ends : Acc (fun after before => Pool.Step steps before after) pool
  goesOn : ∀ reached, Pool.Reachable steps pool reached →
    (∃ after, Pool.Step steps reached after) ∨ ∀ thread, ∃ result, reached.programs thread = .done result
  right : ∀ reached, Pool.Reachable steps pool reached →
    (∀ thread, ∃ result, reached.programs thread = .done result) → post reached.state

variable {steps}

/-- No run goes on for ever, as every step leaves less of the programs. -/
theorem Pool.step_wellFounded [Fintype Thread] :
    WellFounded fun after before : Pool Thread Command Response State Result =>
      Pool.Step steps before after :=
  Subrelation.wf (fun stepped => stepped.left)
    (InvImage.wf Pool.left (WellFounded.cutExpand Program.rest_wellFounded))

/-- There is a run in which all threads come to their ends. -/
theorem Pool.Returns.exists_run {pool : Pool Thread Command Response State Result}
    {post : State → Prop} (returns : pool.Returns steps post) :
    ∃ last, Pool.Reachable steps pool last ∧ ∀ thread, ∃ result, last.programs thread = .done result := by
  have general : ∀ reached, Acc (fun after before => Pool.Step steps before after) reached →
      Pool.Reachable steps pool reached → ∃ last, Pool.Reachable steps pool last ∧
        ∀ thread, ∃ result, last.programs thread = .done result := by
    intro reached ends run
    induction ends with
    | intro reached _ hypothesis =>
        rcases returns.goesOn reached run with ⟨after, stepped⟩ | ended
        · exact hypothesis after stepped (run.tail stepped)
        · exact ⟨reached, run, ended⟩
  exact general pool returns.ends .refl

/-- Threads that keep to their conducts, and all of whose calls have answers. -/
theorem Conduct.PoolFollows.returns [Fintype Thread] {conducts : Thread → Conduct Command State}
    {posts : Thread → Result → State → Prop} {pool : Pool Thread Command Response State Result}
    {post : State → Prop} (follows : PoolFollows conducts steps posts pool)
    (compatible : Compatible conducts posts)
    (answered : ∀ thread command, (conducts thread).answered command)
    (together : ∀ state, (∀ thread, ∃ result, posts thread result state) → post state) :
    pool.Returns steps post where
  ends := Pool.step_wellFounded.apply pool
  goesOn := by
    intro reached run
    have followsThere := follows.reachable compatible run
    by_cases ended : ∀ thread, ∃ result, reached.programs thread = .done result
    · exact Or.inr ended
    rw [not_forall] at ended
    rcases ended with ⟨thread, waits⟩
    cases waiting : reached.programs thread with
    | done result => exact absurd ⟨result, waiting⟩ waits
    | call command next => exact Or.inl (followsThere.can_step compatible waiting (answered thread command))
  right := by
    intro reached run ended
    apply together
    intro thread
    rcases ended thread with ⟨result, isDone⟩
    exact ⟨result, (follows.reachable compatible run).ended isDone⟩

end Ends

end Apue.Foundation
