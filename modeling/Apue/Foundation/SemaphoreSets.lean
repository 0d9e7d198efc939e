import Mathlib.Algebra.Ring.Int.Defs
import Mathlib.Algebra.Order.BigOperators.Group.Finset
import Mathlib.Logic.Function.Basic

/-! # Sets of semaphores

The operations of a list are performed on the members of a set all at once, or the
caller has to wait. What an operation with undo changes is remembered for its process
and given back when the process ends.
-/

namespace Apue.Foundation

structure SemOp (Member : Type) where
  member : Member
  amount : Int
  undo : Bool
  deriving DecidableEq

inductive Attempt (Member : Type)
  | done (values adjust : Member → Int)
  | blocks
  | outOfRange

variable {Member : Type} [DecidableEq Member]

/-- Try the operations one after the other, with the values of the members and what the
process has to give back. -/
def attempt (limit : Int) : List (SemOp Member) → (Member → Int) → (Member → Int) → Attempt Member
  | [], values, adjust => .done values adjust
  | op :: ops, values, adjust =>
      let value := values op.member + op.amount
      if (op.amount = 0 ∧ values op.member ≠ 0) ∨ value < 0 then .blocks
      else
        let back := if op.undo then adjust op.member - op.amount else adjust op.member
        if limit < value ∨ back < -limit ∨ limit < back then .outOfRange
        else attempt limit ops (Function.update values op.member value)
          (Function.update adjust op.member back)

/-- The value of a member when a process has ended. -/
def givenBack (limit value back : Int) : Int := max 0 (min limit (value + back))

variable {limit : Int} {op : SemOp Member} {ops : List (SemOp Member)}
  {values adjust values' adjust' : Member → Int} {member : Member}

theorem attempt_cons_done (done : attempt limit (op :: ops) values adjust = .done values' adjust') :
    0 ≤ values op.member + op.amount ∧ (op.amount = 0 → values op.member = 0) ∧
      attempt limit ops (Function.update values op.member (values op.member + op.amount))
        (Function.update adjust op.member
          (if op.undo then adjust op.member - op.amount else adjust op.member)) =
        .done values' adjust' := by
  rw [attempt] at done
  by_cases blocked : (op.amount = 0 ∧ values op.member ≠ 0) ∨ values op.member + op.amount < 0
  · dsimp only at done
    rw [if_pos blocked] at done
    cases done
  · dsimp only at done
    rw [if_neg blocked] at done
    rcases not_or.mp blocked with ⟨open_, nonnegative⟩
    refine ⟨Int.not_lt.mp nonnegative, fun zero => ?_, ?_⟩
    · by_contra occupied
      exact open_ ⟨zero, occupied⟩
    · by_cases outside : limit < values op.member + op.amount ∨
          (if op.undo then adjust op.member - op.amount else adjust op.member) < -limit ∨
          limit < (if op.undo then adjust op.member - op.amount else adjust op.member)
      · rw [if_pos outside] at done
        cases done
      · rw [if_neg outside] at done
        exact done

/-- An operation that fits. -/
theorem attempt_cons (undo : op.undo = true) (nonnegative : 0 ≤ values op.member + op.amount)
    (zero : op.amount = 0 → values op.member = 0) (small : values op.member + op.amount ≤ limit)
    (low : -limit ≤ adjust op.member - op.amount) (high : adjust op.member - op.amount ≤ limit) :
    attempt limit (op :: ops) values adjust =
      attempt limit ops (Function.update values op.member (values op.member + op.amount))
        (Function.update adjust op.member (adjust op.member - op.amount)) := by
  rw [attempt]
  dsimp only
  have open_ : ¬ ((op.amount = 0 ∧ values op.member ≠ 0) ∨ values op.member + op.amount < 0) := by
    rintro (⟨isZero, occupied⟩ | negative)
    · exact occupied (zero isZero)
    · omega
  rw [if_neg open_, if_pos undo, if_neg (by omega)]

/-- Waiting for a member to be 0. -/
theorem attempt_zero (zero : values member = 0) (low : -limit ≤ adjust member)
    (high : adjust member ≤ limit) :
    attempt limit (⟨member, 0, false⟩ :: ops) values adjust = attempt limit ops values adjust := by
  have open_ : ¬ (((0 : Int) = 0 ∧ values member ≠ 0) ∨ values member + 0 < 0) := by
    rw [zero]
    simp
  have inside : ¬ (limit < values member + 0 ∨ adjust member < -limit ∨ limit < adjust member) := by
    rw [zero]
    omega
  rw [attempt]
  dsimp only
  rw [if_neg open_, if_neg Bool.false_ne_true, if_neg inside, Int.add_zero,
    Function.update_eq_self, Function.update_eq_self]

theorem attempt_occupied (occupied : values member ≠ 0) :
    attempt limit (⟨member, 0, false⟩ :: ops) values adjust = .blocks := by
  rw [attempt]
  exact if_pos (Or.inl ⟨rfl, occupied⟩)

theorem attempt_cons_blocks (blocked : attempt limit (op :: ops) values adjust = .blocks) :
    (op.amount = 0 ∧ values op.member ≠ 0) ∨ values op.member + op.amount < 0 ∨
      ∃ adjust', attempt limit ops
        (Function.update values op.member (values op.member + op.amount)) adjust' = .blocks := by
  rw [attempt] at blocked
  dsimp only at blocked
  by_cases here : (op.amount = 0 ∧ values op.member ≠ 0) ∨ values op.member + op.amount < 0
  · exact here.imp_right Or.inl
  · rw [if_neg here] at blocked
    by_cases outside : limit < values op.member + op.amount ∨
        (if op.undo then adjust op.member - op.amount else adjust op.member) < -limit ∨
        limit < (if op.undo then adjust op.member - op.amount else adjust op.member)
    · rw [if_pos outside] at blocked
      cases blocked
    · rw [if_neg outside] at blocked
      exact Or.inr (Or.inr ⟨_, blocked⟩)

/-- Where nothing is taken away only a member that has to be 0 can be waited for. -/
theorem attempt_open (positive : ∀ op ∈ ops, 0 < op.amount)
    (nonnegative : ∀ op ∈ ops, 0 ≤ values op.member) :
    attempt limit ops values adjust ≠ .blocks := by
  induction ops generalizing values adjust with
  | nil => exact nofun
  | cons op ops hypothesis =>
      intro blocked
      have isPositive := positive op List.mem_cons_self
      have isNonnegative := nonnegative op List.mem_cons_self
      rcases attempt_cons_blocks blocked with ⟨zero, _⟩ | negative | ⟨adjust', rest⟩
      · omega
      · omega
      · apply hypothesis (fun op member => positive op (List.mem_cons_of_mem _ member)) _ rest
        intro other isOther
        by_cases same : other.member = op.member
        · rw [same, Function.update_self]
          omega
        · rw [Function.update_of_ne same]
          exact nonnegative other (List.mem_cons_of_mem _ isOther)

/-- What the operations take from the members is given back later. -/
theorem attempt_conserves (undo : ∀ op ∈ ops, op.amount = 0 ∨ op.undo = true)
    (done : attempt limit ops values adjust = .done values' adjust') (member : Member) :
    values' member + adjust' member = values member + adjust member := by
  induction ops generalizing values adjust with
  | nil =>
      cases done
      rfl
  | cons op ops hypothesis =>
      have rest := (attempt_cons_done done).2.2
      rw [hypothesis (fun op member => undo op (List.mem_cons_of_mem _ member)) rest]
      have here := undo op List.mem_cons_self
      by_cases same : member = op.member
      · subst same
        rw [Function.update_self, Function.update_self]
        split
        · omega
        · rename_i kept
          have zero := here.resolve_right kept
          omega
      · rw [Function.update_of_ne same, Function.update_of_ne same]

/-- What the operations add to a member. -/
def added (ops : List (SemOp Member)) (member : Member) : Int :=
  (ops.map fun op => if op.member = member then op.amount else 0).sum

theorem attempt_added (done : attempt limit ops values adjust = .done values' adjust')
    (member : Member) : values' member = values member + added ops member := by
  induction ops generalizing values adjust with
  | nil =>
      cases done
      exact (Int.add_zero _).symm
  | cons op ops hypothesis =>
      rw [hypothesis (attempt_cons_done done).2.2, added, added, List.map_cons, List.sum_cons]
      by_cases same : op.member = member
      · rw [same, Function.update_self, if_pos rfl]
        omega
      · rw [Function.update_of_ne (Ne.symm same), if_neg same]
        omega

theorem attempt_nonneg (nonnegative : 0 ≤ values member)
    (done : attempt limit ops values adjust = .done values' adjust') : 0 ≤ values' member := by
  induction ops generalizing values adjust with
  | nil =>
      cases done
      exact nonnegative
  | cons op ops hypothesis =>
      rcases attempt_cons_done done with ⟨fits, _, rest⟩
      apply hypothesis _ rest
      by_cases same : member = op.member
      · subst same
        rw [Function.update_self]
        exact fits
      · rw [Function.update_of_ne same]
        exact nonnegative

/-! ## What the processes have to give back -/

section Rows

variable {Process : Type} [Fintype Process] [DecidableEq Process]

/-- What all processes together give back to a member. -/
def owed (rows : Process → Member → Int) (member : Member) : Int := ∑ process, rows process member

omit [DecidableEq Member] in
theorem owed_update (rows : Process → Member → Int) (process : Process) (row : Member → Int)
    (member : Member) :
    owed (Function.update rows process row) member =
      owed rows member + (row member - rows process member) := by
  have split (rows : Process → Member → Int) : owed rows member =
      rows process member + ∑ other ∈ Finset.univ.erase process, rows other member :=
    (Finset.add_sum_erase Finset.univ (fun other => rows other member)
      (Finset.mem_univ process)).symm
  have same : ∑ other ∈ Finset.univ.erase process, Function.update rows process row other member =
      ∑ other ∈ Finset.univ.erase process, rows other member := by
    apply Finset.sum_congr rfl
    intro other isOther
    rw [Function.update_of_ne (Finset.ne_of_mem_erase isOther)]
  rw [split, split rows, same, Function.update_self]
  omega

end Rows

end Apue.Foundation
