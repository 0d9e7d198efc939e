import Apue.Foundation.Program
import Mathlib.Algebra.Order.BigOperators.Group.Finset
import Mathlib.Logic.Hydra
import Mathlib.Order.OrderIsoNat

/-! # Runs come to an end

A step leaves less of the program of its thread, and finitely many threads do not go on
for ever. What the programs may still do bounds what happens in a run.
-/

namespace Apue.Foundation

variable {Thread Command State Result : Type} {Response : Command → Type}

/-- What is left of a program after its first call. -/
inductive Program.Rest : Program Command Response Result → Program Command Response Result → Prop
  | next {command : Command} (next : Response command → Program Command Response Result)
      (response : Response command) : Program.Rest (next response) (.call command next)

theorem Program.rest_wellFounded : WellFounded (@Program.Rest Command Result Response) := by
  constructor
  intro program
  induction program with
  | done => exact ⟨_, nofun⟩
  | call command next hypothesis =>
      constructor
      rintro _ ⟨_, response⟩
      exact hypothesis response

variable [Fintype Thread]
  {step : Thread → (command : Command) → State → Response command → State → Prop}

/-- What is left of the programs of all threads. -/
def Pool.left (pool : Pool Thread Command Response State Result) :
    Multiset (Program Command Response Result) :=
  Finset.univ.val.map pool.programs

variable [DecidableEq Thread]

theorem Pool.Step.left {before after : Pool Thread Command Response State Result}
    (stepped : Pool.Step step before after) :
    Relation.CutExpand Program.Rest after.left before.left := by
  rcases stepped with ⟨thread, waiting, taken⟩
  rename_i command next response state
  refine ⟨{next response}, .call command next, ?_, ?_⟩
  · intro rest member
    rw [Multiset.mem_singleton.mp member]
    exact .next next response
  · have split (programs : Thread → Program Command Response Result) :
        (Finset.univ : Finset Thread).val.map programs =
          programs thread ::ₘ (Finset.univ.erase thread).val.map programs := by
      rw [Finset.erase_val, ← Multiset.map_cons, Multiset.cons_erase (Finset.mem_univ thread)]
    have others : (Finset.univ.erase thread).val.map (Function.update before.programs thread (next response)) =
        (Finset.univ.erase thread).val.map before.programs := by
      apply Multiset.map_congr rfl
      intro other member
      exact Function.update_of_ne (Finset.ne_of_mem_erase member) _ _
    have first : Function.update before.programs thread (next response) thread = next response :=
      Function.update_self _ _ _
    rw [Pool.left, Pool.left, split, split before.programs, others, waiting]
    dsimp only
    rw [first, add_comm, add_comm _ {next response}, Multiset.singleton_add,
      Multiset.singleton_add, Multiset.cons_swap]

/-- Finitely many threads do not go on for ever. -/
theorem Pool.no_infinite_run (run : Nat → Pool Thread Command Response State Result) :
    ∃ time, ¬ Pool.Step step (run time) (run (time + 1)) := by
  by_contra goesOn
  rw [not_exists] at goesOn
  have descends (time : Nat) : Relation.CutExpand Program.Rest (run (time + 1)).left (run time).left :=
    (not_not.mp (goesOn time)).left
  have ends := WellFounded.cutExpand (@Program.rest_wellFounded Command Result Response)
  exact (wellFounded_iff_isEmpty_descending_chain.mp ends).elim ⟨fun time => (run time).left, descends⟩

/-! ## How often something happens -/

/-- On its way through the program a thread makes at most so many calls of a kind. -/
def Program.AtMost (kind : Command → Bool) : Program Command Response Result → Nat → Prop
  | .done _, _ => True
  | .call command next, bound => ∃ rest, rest + (kind command).toNat ≤ bound ∧
      ∀ response, (next response).AtMost kind rest

variable {kind : Command → Bool}

theorem Program.AtMost.mono {program : Program Command Response Result} {bound more : Nat}
    (atMost : program.AtMost kind bound) (least : bound ≤ more) : program.AtMost kind more := by
  cases program with
  | done => exact trivial
  | call command next =>
      rcases atMost with ⟨rest, enough, continued⟩
      exact ⟨rest, Nat.le_trans enough least, continued⟩

theorem Program.AtMost.bind {Next : Type} {program : Program Command Response Result}
    {rest : Result → Program Command Response Next} {first second : Nat}
    (before : program.AtMost kind first) (behind : ∀ result, (rest result).AtMost kind second) :
    (program >>= rest).AtMost kind (first + second) := by
  induction program generalizing first with
  | done result => exact (behind result).mono (Nat.le_add_left _ _)
  | call command next hypothesis =>
      rcases before with ⟨left, enough, continued⟩
      exact ⟨left + second, by omega, fun response => hypothesis response (continued response)⟩

/-- Behind a program without such calls. -/
theorem Program.AtMost.behind {Next : Type} {program : Program Command Response Result}
    {rest : Result → Program Command Response Next} {bound : Nat} (before : program.AtMost kind 0)
    (behind : ∀ result, (rest result).AtMost kind bound) : (program >>= rest).AtMost kind bound := by
  rw [← Nat.zero_add bound]
  exact before.bind behind

theorem Program.AtMost.perform {command : Command} (other : kind command = false) :
    (Program.perform command : Program Command Response _).AtMost kind 0 := by
  refine ⟨0, ?_, fun _ => trivial⟩
  rw [other]
  exact Nat.le_refl 0

/-- What is counted in a state is bounded by what the programs may do. -/
theorem Pool.Reachable.counted {count : State → Nat}
    (counts : ∀ thread command state response after, step thread command state response after →
      count after ≤ count state + (kind command).toNat)
    {before after : Pool Thread Command Response State Result} {bounds : Thread → Nat}
    (bounded : ∀ thread, (before.programs thread).AtMost kind (bounds thread))
    (reached : Pool.Reachable step before after) :
    ∃ left : Thread → Nat, (∀ thread, (after.programs thread).AtMost kind (left thread)) ∧
      count after.state + ∑ thread, left thread ≤ count before.state + ∑ thread, bounds thread := by
  induction reached with
  | refl => exact ⟨bounds, bounded, Nat.le_refl _⟩
  | @tail between _ _ stepped hypothesis =>
      rcases hypothesis with ⟨left, atMost, total⟩
      rcases stepped with ⟨thread, waiting, taken⟩
      rename_i command next response state
      have mine := atMost thread
      rw [waiting] at mine
      rcases mine with ⟨rest, enough, continued⟩
      refine ⟨Function.update left thread rest, fun other => ?_, ?_⟩
      · dsimp only
        by_cases same : other = thread
        · rw [same, Function.update_self, Function.update_self]
          exact continued response
        · rw [Function.update_of_ne same, Function.update_of_ne same]
          exact atMost other
      · have grows := counts thread command between.state response state taken
        have others : ∑ other ∈ Finset.univ.erase thread, Function.update left thread rest other =
            ∑ other ∈ Finset.univ.erase thread, left other := by
          apply Finset.sum_congr rfl
          intro other isOther
          exact Function.update_of_ne (Finset.ne_of_mem_erase isOther) _ _
        rw [← Finset.add_sum_erase _ _ (Finset.mem_univ thread)] at total ⊢
        rw [others, Function.update_self]
        dsimp only
        omega

end Apue.Foundation
