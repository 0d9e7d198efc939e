import Apue.Foundation.LocalReasoning
import Apue.Semaphore.Processes
import Mathlib.Algebra.BigOperators.Ring.Finset

/-! # What the counter counts

Whatever the processes do, a set that exists has never been set, or else once; then its
counter is `BIGCOUNT` less the number of times that the processes have it open.
-/

namespace Apue.Semaphore

open Apue.Foundation

/-- What a process has in hand. -/
inductive Point
  | resting
  /-- `sem_create` has gone back so many times. -/
  | trying (round : Nat)
  | got (id round : Nat)
  | sleeping (id round : Nat)
  /-- The lock of a set for `sem_create`. -/
  | locked (id : Nat)
  | fresh (id : Nat)
  | half (id : Nat)
  | ready (id : Nat)
  | created (id : Nat)
  | opened (id : Nat)
  | closing (id : Nat)
  /-- The lock of a set for `sem_close`. -/
  | counted (id : Nat)
  | removing (id : Nat)
  | leaving (id : Nat)
  deriving DecidableEq

namespace Point

def lock : Point → Option Nat
  | .locked id | .fresh id | .half id | .ready id | .counted id | .removing id | .leaving id =>
      some id
  | _ => none

/-- A set that a process has open and that its history does not show. -/
def extra : Point → Option Nat
  | .created id | .opened id | .closing id => some id
  | _ => none

end Point

/-- What a process knows of itself. -/
structure Known where
  point : Point
  references : Nat → Nat
  calling : Option Call

/-- How often a process has a set open. -/
def Known.taken (known : Known) (id : Nat) : Nat :=
  known.references id + if known.point.extra = some id then 1 else 0

variable {Process : Type}

/-- What a process relies on. `timely` says that no `sem_open` takes effect while a set
is about to be removed, and `unslept` that no set is removed while a `sem_create` sleeps. -/
def Placed (timely unslept : Prop) (process : Process) (known : Known) (state : State Process) :
    Prop :=
  match known.point with
  | .trying round => round ≤ state.removals
  | .got id round => round ≤ state.removals ∧ (state.sets id = none → round < state.removals)
  | .sleeping id round => (round ≤ state.removals ∧ (state.sets id = none → round < state.removals)) ∧
      state.asleep process = some (id, op_lock) ∧ (unslept → state.sets id ≠ none)
  | .fresh id => state.settings id 0 = 0 ∧ state.settings id 1 = 0
  | .half id => state.settings id 0 = 1 ∧ state.settings id 1 = 0
  | .ready id | .counted id => state.settings id 0 = 1 ∧ state.settings id 1 = 1
  | .created id => state.sets id ≠ none ∧ state.settings id 0 = 1 ∧ state.settings id 1 = 1
  | .removing id => (state.settings id 0 = 1 ∧ state.settings id 1 = 1) ∧
      known.calling = some (.close id) ∧ state.answer process = some BIGCOUNT ∧
      (timely → ∀ values, state.sets id = some values → values 1 = BIGCOUNT)
  | _ => True

variable [Fintype Process]

/-- The members of one set, and what the processes have to give back to them. -/
structure Counted (ghost : Process → Known) (id : Nat) (settings : Member → Nat)
    (rows : Process → Member → Int) (values : Member → Int) : Prop where
  taken : ∀ process, rows process 1 = (ghost process).taken id
  held : ∀ process, rows process 2 = if (ghost process).point.lock = some id then -1 else 0
  lock : values 2 + owed rows 2 = 0
  free : 0 ≤ values 2 ∧ values 2 ≤ 1
  counter : (settings 1 = 0 ∧ values 1 = 0 ∧ owed rows 1 = 0) ∨
    (settings 0 = 1 ∧ settings 1 = 1 ∧ values 1 + owed rows 1 = BIGCOUNT)
  halfway : settings 1 = 0 → settings 0 = 0 ∨ ∃ process, (ghost process).point = .half id
  few : owed rows 1 < BIGCOUNT

structure Valid (timely unslept : Prop) (ghost : Process → Known)
    (state : State Process) : Prop where
  named : ∀ key id, state.ids key = some id → state.sets id ≠ none
  below : ∀ id, state.sets id ≠ none → id < state.created
  unset : ∀ id, state.created ≤ id → ∀ num, state.settings id num = 0
  untaken : ∀ id, state.created ≤ id → ∀ process, (ghost process).taken id = 0
  calling : ∀ process, state.calling process = (ghost process).calling
  references : ∀ process, state.references process = (ghost process).references
  held : ∀ process id, (ghost process).point.lock = some id → state.sets id ≠ none
  kept : ∀ process other id, (ghost process).point = .created id → (ghost other).point ≠ .removing id
  placed : ∀ process, Placed timely unslept process (ghost process) state
  counted : ∀ id values, state.sets id = some values →
    Counted ghost id (state.settings id) (fun process => state.semadj process id) values

section Counted

variable {ghost : Process → Known} {id : Nat} {settings : Member → Nat}
  {rows : Process → Member → Int} {values : Member → Int} {process other : Process} {known : Known}

/-- When the lock is taken, a process holds it. -/
theorem Counted.holder (counted : Counted ghost id settings rows values) (locked : values 2 ≠ 0) :
    ∃ process, (ghost process).point.lock = some id := by
  by_contra none
  apply locked
  have zero : owed rows 2 = 0 := by
    apply Finset.sum_eq_zero
    intro process _
    rw [counted.held process, if_neg fun held => none ⟨process, held⟩]
  have lock := counted.lock
  omega

/-- When a process holds the lock, it is taken. -/
theorem Counted.occupied (counted : Counted ghost id settings rows values)
    (held : (ghost process).point.lock = some id) : values 2 = 1 := by
  have nonnegative : ∀ one ∈ Finset.univ, 0 ≤ -rows one 2 := by
    intro one _
    rw [counted.held]
    split <;> omega
  have single := Finset.single_le_sum nonnegative (Finset.mem_univ process)
  have isOwed : owed rows 2 = ∑ one, rows one 2 := rfl
  rw [Finset.sum_neg_distrib, ← isOwed, counted.held, if_pos held] at single
  have lock := counted.lock
  have free := counted.free
  omega

theorem Counted.owed_nonneg (counted : Counted ghost id settings rows values) : 0 ≤ owed rows 1 := by
  apply Finset.sum_nonneg
  intro process _
  rw [counted.taken process]
  exact Int.natCast_nonneg _

theorem Counted.taken_le (counted : Counted ghost id settings rows values) (process : Process) :
    ((ghost process).taken id : Int) ≤ owed rows 1 := by
  have nonnegative : ∀ other ∈ Finset.univ, 0 ≤ rows other 1 := by
    intro other _
    rw [counted.taken other]
    exact Int.natCast_nonneg _
  rw [← counted.taken process]
  exact Finset.single_le_sum nonnegative (Finset.mem_univ process)

/-- What `GETVAL` tells about the counter. -/
theorem Counted.value (counted : Counted ghost id settings rows values) :
    (settings 1 = 0 ∧ values 1 = 0) ∨
      (settings 0 = 1 ∧ settings 1 = 1 ∧ 0 < values 1 ∧ values 1 ≤ BIGCOUNT) := by
  have less := counted.few
  have nonnegative := counted.owed_nonneg
  rcases counted.counter with ⟨isUnset, zero, _⟩ | ⟨isSet, isSet', total⟩
  · exact Or.inl ⟨isUnset, zero⟩
  · exact Or.inr ⟨isSet, isSet', by omega, by omega⟩

/-- The value of a set is set. -/
theorem Counted.set_value (counted : Counted ghost id settings rows values) (unset : settings 1 = 0)
    (half : (ghost process).point = .half id) (count : Nat) (val : Int) :
    Counted ghost id (Function.update settings 0 count)
      (fun one => Function.update (rows one) 0 0) (Function.update values 0 val) := by
  have rowOne (one : Process) : Function.update (rows one) 0 0 1 = rows one 1 :=
    Function.update_of_ne (by decide) _ _
  have rowTwo (one : Process) : Function.update (rows one) 0 0 2 = rows one 2 :=
    Function.update_of_ne (by decide) _ _
  have owedOne : owed (fun one => Function.update (rows one) 0 0) 1 = owed rows 1 :=
    Finset.sum_congr rfl fun one _ => rowOne one
  have owedTwo : owed (fun one => Function.update (rows one) 0 0) 2 = owed rows 2 :=
    Finset.sum_congr rfl fun one _ => rowTwo one
  have isOne : Function.update values 0 val 1 = values 1 := Function.update_of_ne (by decide) _ _
  have isTwo : Function.update values 0 val 2 = values 2 := Function.update_of_ne (by decide) _ _
  have isUnset : Function.update settings 0 count 1 = 0 :=
    (Function.update_of_ne (by decide) _ _).trans unset
  constructor
  · exact fun one => (rowOne one).trans (counted.taken one)
  · exact fun one => (rowTwo one).trans (counted.held one)
  · rw [isTwo, owedTwo]
    exact counted.lock
  · rw [isTwo]
    exact counted.free
  · rw [isOne, owedOne]
    rcases counted.counter with ⟨_, zero, nothing⟩ | ⟨_, isSet, _⟩
    · exact Or.inl ⟨isUnset, zero, nothing⟩
    · omega
  · exact fun _ => Or.inr ⟨process, half⟩
  · rw [owedOne]
    exact counted.few

/-- The counter of a set is set, when nobody has the set open. -/
theorem Counted.set_counter (counted : Counted ghost id settings rows values) (unset : settings 1 = 0)
    (isSet : settings 0 = 1) :
    Counted ghost id (Function.update settings 1 1) (fun one => Function.update (rows one) 1 0)
      (Function.update values 1 BIGCOUNT) := by
  have rowTwo (one : Process) : Function.update (rows one) 1 0 2 = rows one 2 :=
    Function.update_of_ne (by decide) _ _
  have owedTwo : owed (fun one => Function.update (rows one) 1 0) 2 = owed rows 2 :=
    Finset.sum_congr rfl fun one _ => rowTwo one
  have isTwo : Function.update values 1 BIGCOUNT 2 = values 2 :=
    Function.update_of_ne (by decide) _ _
  have owedOne : owed (fun one => Function.update (rows one) 1 0) 1 = 0 :=
    Finset.sum_eq_zero fun one _ => Function.update_self _ _ _
  have nothing : owed rows 1 = 0 := by
    rcases counted.counter with ⟨_, _, nothing⟩ | ⟨_, isSet', _⟩
    · exact nothing
    · omega
  constructor
  · intro one
    have least := counted.taken_le one
    rw [Function.update_self]
    omega
  · exact fun one => (rowTwo one).trans (counted.held one)
  · rw [isTwo, owedTwo]
    exact counted.lock
  · rw [isTwo]
    exact counted.free
  · rw [owedOne, Function.update_self, Function.update_self]
    exact Or.inr ⟨(Function.update_of_ne (by decide) _ _).trans isSet, rfl, Int.add_zero _⟩
  · intro none
    rw [Function.update_self] at none
    cases none
  · rw [owedOne]
    decide

variable [DecidableEq Process]

/-- Two processes do not hold the lock of one set. -/
theorem Counted.exclusive (counted : Counted ghost id settings rows values)
    (mine : (ghost process).point.lock = some id) (others : (ghost other).point.lock = some id) :
    other = process := by
  by_contra different
  have left := counted.held process
  have right := counted.held other
  rw [if_pos mine] at left
  rw [if_pos others] at right
  have nonpositive (one : Process) : rows one 2 ≤ 0 := by
    rw [counted.held one]
    split <;> omega
  have pair : owed rows 2 ≤ rows process 2 + rows other 2 := by
    rw [owed, ← Finset.add_sum_erase Finset.univ (fun one => rows one 2) (Finset.mem_univ process),
      ← Finset.add_sum_erase (Finset.univ.erase process) (fun one => rows one 2)
        (Finset.mem_erase.mpr ⟨different, Finset.mem_univ other⟩)]
    have rest : ∑ one ∈ (Finset.univ.erase process).erase other, rows one 2 ≤ 0 :=
      Finset.sum_nonpos fun one _ => nonpositive one
    omega
  have lock := counted.lock
  have free := counted.free
  omega

/-- Steps elsewhere. -/
theorem Counted.keep (counted : Counted ghost id settings rows values)
    (taken : known.taken id = (ghost process).taken id)
    (held : known.point.lock = some id ↔ (ghost process).point.lock = some id)
    (half : settings 1 = 0 → (ghost process).point = .half id → known.point = .half id) :
    Counted (Function.update ghost process known) id settings rows values where
  taken := by
    intro other
    rw [counted.taken]
    by_cases same : other = process
    · rw [same, Function.update_self, taken]
    · rw [Function.update_of_ne same]
  held := by
    intro other
    rw [counted.held]
    by_cases same : other = process
    · rw [same, Function.update_self]
      simp only [held]
    · rw [Function.update_of_ne same]
  lock := counted.lock
  free := counted.free
  counter := counted.counter
  halfway := by
    intro unset
    refine (counted.halfway unset).imp_right ?_
    rintro ⟨other, isHalf⟩
    refine ⟨other, ?_⟩
    by_cases same : other = process
    · rw [same] at isHalf ⊢
      rw [Function.update_self]
      exact half unset isHalf
    · rw [Function.update_of_ne same]
      exact isHalf
  few := counted.few

/-- A list of operations is done on the set. -/
theorem Counted.operated (counted : Counted ghost id settings rows values) {ops : List SemBuf}
    {values' adjust' : Member → Int} (undo : ∀ op ∈ ops, op.amount = 0 ∨ op.undo = true)
    (done : attempt SEMVMX ops values (rows process) = .done values' adjust')
    (taken : adjust' 1 = known.taken id)
    (held : adjust' 2 = if known.point.lock = some id then -1 else 0) (one : values' 2 ≤ 1)
    (unset : settings 1 = 0 → values' 1 = 0) (half : (ghost process).point ≠ .half id)
    (few : owed rows 1 + (adjust' 1 - rows process 1) < BIGCOUNT) :
    Counted (Function.update ghost process known) id settings (Function.update rows process adjust')
      values' where
  taken := by
    intro other
    by_cases same : other = process
    · rw [same, Function.update_self, Function.update_self, taken]
    · rw [Function.update_of_ne same, Function.update_of_ne same, counted.taken]
  held := by
    intro other
    by_cases same : other = process
    · rw [same, Function.update_self, Function.update_self, held]
    · rw [Function.update_of_ne same, Function.update_of_ne same, counted.held]
  lock := by
    have conserved := attempt_conserves undo done 2
    have lock := counted.lock
    rw [owed_update]
    omega
  free := ⟨attempt_nonneg counted.free.1 done, one⟩
  counter := by
    have conserved := attempt_conserves undo done 1
    rw [owed_update]
    rcases counted.counter with ⟨isUnset, zero, nothing⟩ | ⟨isSet, isSet', total⟩
    · have still := unset isUnset
      exact Or.inl ⟨isUnset, still, by omega⟩
    · exact Or.inr ⟨isSet, isSet', by omega⟩
  halfway := by
    intro isUnset
    refine (counted.halfway isUnset).imp_right ?_
    rintro ⟨other, isHalf⟩
    refine ⟨other, ?_⟩
    have different : other ≠ process := by
      intro same
      rw [same] at isHalf
      exact half isHalf
    rw [Function.update_of_ne different]
    exact isHalf
  few := by
    rw [owed_update]
    exact few

end Counted

section Valid

variable [DecidableEq Process] {timely unslept : Prop} {ghost : Process → Known}
  {state after : State Process} {process : Process} {known : Known}

omit [Fintype Process] [DecidableEq Process] in
/-- Steps of other processes. -/
theorem Placed.keep (placed : Placed timely unslept process known state)
    (asleep : after.asleep process = state.asleep process)
    (answer : after.answer process = state.answer process)
    (removals : state.removals ≤ after.removals)
    (gone : ∀ id, state.sets id ≠ none → after.sets id = none → state.removals < after.removals ∧
      (unslept → state.asleep process ≠ some (id, op_lock)) ∧ known.point ≠ .created id)
    (settings : ∀ id, known.point.lock = some id ∨ known.point = .created id →
      after.settings id = state.settings id)
    (value : ∀ id, known.point = .removing id → timely → ∀ values', after.sets id = some values' →
      ∃ values, state.sets id = some values ∧ values 1 = values' 1) :
    Placed timely unslept process known after := by
  rcases known with ⟨point, references, calling⟩
  have round (id round : Nat)
      (rounds : round ≤ state.removals ∧ (state.sets id = none → round < state.removals)) :
      round ≤ after.removals ∧ (after.sets id = none → round < after.removals) := by
    refine ⟨Nat.le_trans rounds.1 removals, fun absent => ?_⟩
    by_cases present : state.sets id = none
    · exact Nat.lt_of_lt_of_le (rounds.2 present) removals
    · exact Nat.lt_of_le_of_lt rounds.1 (gone id present absent).1
  cases point with
  | trying rounds => exact Nat.le_trans placed removals
  | got id rounds => exact round id rounds placed
  | sleeping id rounds =>
      rcases placed with ⟨bounds, sleeps, present⟩
      refine ⟨round id rounds bounds, asleep.trans sleeps, fun kept absent => ?_⟩
      exact (gone id (present kept) absent).2.1 kept sleeps
  | fresh id | half id | ready id | counted id =>
      change after.settings id 0 = _ ∧ after.settings id 1 = _
      rw [settings id (Or.inl rfl)]
      exact placed
  | created id =>
      refine ⟨fun absent => (gone id placed.1 absent).2.2 rfl, ?_⟩
      rw [settings id (Or.inr rfl)]
      exact placed.2
  | removing id =>
      rcases placed with ⟨isSet, isCalling, isAnswer, total⟩
      refine ⟨?_, isCalling, answer.trans isAnswer, fun prompt values' isAfter => ?_⟩
      · rw [settings id (Or.inl rfl)]
        exact isSet
      · rcases value id rfl prompt values' isAfter with ⟨values, isValues, same⟩
        rw [← same]
        exact total prompt values isValues
  | resting | locked | opened | closing | leaving => exact trivial

theorem Valid.step (valid : Valid timely unslept ghost state)
    (named : ∀ key id, after.ids key = some id → after.sets id ≠ none)
    (below : ∀ id, after.sets id ≠ none → id < after.created)
    (created : state.created ≤ after.created)
    (unset : ∀ id, after.created ≤ id → ∀ num, after.settings id num = 0)
    (untaken : ∀ id, after.created ≤ id → known.taken id = 0)
    (calling : after.calling = Function.update state.calling process known.calling)
    (references : after.references = Function.update state.references process known.references)
    (held : ∀ id, known.point.lock = some id → after.sets id ≠ none)
    (heldOthers : ∀ id, after.sets id = none → state.sets id ≠ none → ∀ other, other ≠ process →
      (ghost other).point.lock ≠ some id)
    (createdHere : ∀ id, known.point = .created id → ∀ other, other ≠ process →
      (ghost other).point ≠ .removing id)
    (removingHere : ∀ id, known.point = .removing id → ∀ other, other ≠ process →
      (ghost other).point ≠ .created id)
    (placed : Placed timely unslept process known after)
    (others : ∀ other, other ≠ process → Placed timely unslept other (ghost other) after)
    (counted : ∀ id values, after.sets id = some values →
      Counted (Function.update ghost process known) id (after.settings id)
        (fun process => after.semadj process id) values) :
    Valid timely unslept (Function.update ghost process known) after where
  named := named
  below := below
  unset := unset
  untaken := by
    intro id outside other
    by_cases same : other = process
    · rw [same, Function.update_self]
      exact untaken id outside
    · rw [Function.update_of_ne same]
      exact valid.untaken id (Nat.le_trans created outside) other
  calling := by
    intro other
    rw [calling]
    by_cases same : other = process
    · rw [same, Function.update_self, Function.update_self]
    · rw [Function.update_of_ne same, Function.update_of_ne same]
      exact valid.calling other
  references := by
    intro other
    rw [references]
    by_cases same : other = process
    · rw [same, Function.update_self, Function.update_self]
    · rw [Function.update_of_ne same, Function.update_of_ne same]
      exact valid.references other
  held := by
    intro other id isHeld
    by_cases same : other = process
    · rw [same, Function.update_self] at isHeld
      exact held id isHeld
    · rw [Function.update_of_ne same] at isHeld
      exact fun absent => heldOthers id absent (valid.held other id isHeld) other same isHeld
  kept := by
    intro left right id isCreated isRemoving
    by_cases mine : left = process
    · rw [mine, Function.update_self] at isCreated
      by_cases yours : right = process
      · rw [yours, Function.update_self, isCreated] at isRemoving
        cases isRemoving
      · rw [Function.update_of_ne yours] at isRemoving
        exact createdHere id isCreated right yours isRemoving
    · rw [Function.update_of_ne mine] at isCreated
      by_cases yours : right = process
      · rw [yours, Function.update_self] at isRemoving
        exact removingHere id isRemoving left mine isCreated
      · rw [Function.update_of_ne yours] at isRemoving
        exact valid.kept left right id isCreated isRemoving
  placed := by
    intro other
    by_cases same : other = process
    · rw [same, Function.update_self]
      exact placed
    · rw [Function.update_of_ne same]
      exact others other same
  counted := counted

/-- A step that changes no set. -/
theorem Valid.quiet (valid : Valid timely unslept ghost state) (ids : after.ids = state.ids)
    (sets : after.sets = state.sets) (created : after.created = state.created)
    (semadj : after.semadj = state.semadj) (settings : after.settings = state.settings)
    (removals : after.removals = state.removals)
    (asleep : ∀ other, other ≠ process → after.asleep other = state.asleep other)
    (answer : ∀ other, other ≠ process → after.answer other = state.answer other)
    (calling : after.calling = Function.update state.calling process known.calling)
    (references : after.references = Function.update state.references process known.references)
    (taken : ∀ id, known.taken id = (ghost process).taken id)
    (lock : known.point.lock = (ghost process).point.lock)
    (notCreated : ∀ id, known.point ≠ .created id) (notHalf : ∀ id, (ghost process).point ≠ .half id)
    (removing : ∀ id, known.point = .removing id → ∀ other, other ≠ process →
      (ghost other).point ≠ .created id)
    (placed : Placed timely unslept process known after) :
    Valid timely unslept (Function.update ghost process known) after := by
  apply valid.step
  · rw [ids, sets]
    exact valid.named
  · rw [sets, created]
    exact valid.below
  · rw [created]
  · rw [created, settings]
    exact valid.unset
  · intro id outside
    rw [created] at outside
    rw [taken]
    exact valid.untaken id outside process
  · exact calling
  · exact references
  · rw [lock, sets]
    exact valid.held process
  · rw [sets]
    exact fun id absent present => absurd absent present
  · exact fun id isCreated => absurd isCreated (notCreated id)
  · exact removing
  · exact placed
  · intro other different
    apply (valid.placed other).keep (asleep other different) (answer other different)
    · rw [removals]
    · rw [sets]
      exact fun id present absent => absurd absent present
    · rw [settings]
      exact fun _ _ => rfl
    · rw [sets]
      exact fun _ _ _ values isValues => ⟨values, isValues, rfl⟩
  · intro id values isValues
    rw [sets] at isValues
    rw [settings, semadj]
    apply (valid.counted id values isValues).keep (taken id)
    · rw [lock]
    · exact fun _ isHalf => absurd isHalf (notHalf id)

theorem Valid.calling_update (valid : Valid timely unslept ghost state)
    (same : known.calling = (ghost process).calling) :
    state.calling = Function.update state.calling process known.calling := by
  rw [same, ← valid.calling, Function.update_eq_self]

theorem Valid.references_update (valid : Valid timely unslept ghost state)
    (same : known.references = (ghost process).references) :
    state.references = Function.update state.references process known.references := by
  rw [same, ← valid.references, Function.update_eq_self]

/-- What a list of operations on one set changes. -/
structure Operated (process : Process) (id : Nat) (values adjust : Member → Int)
    (state after : State Process) : Prop where
  ids : after.ids = state.ids
  sets : after.sets = Function.update state.sets id (some values)
  created : after.created = state.created
  semadj : after.semadj = Function.update state.semadj process
    (Function.update (state.semadj process) id adjust)
  asleep : ∀ other, other ≠ process → after.asleep other = state.asleep other
  calling : after.calling = state.calling
  answer : ∀ other, other ≠ process → after.answer other = state.answer other
  references : after.references = state.references
  settings : after.settings = state.settings
  removals : after.removals = state.removals

theorem Valid.operated (valid : Valid timely unslept ghost state) {id : Nat}
    {values values' adjust' : Member → Int} {ops : List SemBuf}
    (isValues : state.sets id = some values) (undo : ∀ op ∈ ops, op.amount = 0 ∨ op.undo = true)
    (done : attempt SEMVMX ops values (state.semadj process id) = .done values' adjust')
    (operated : Operated process id values' adjust' state after)
    (calling : known.calling = (ghost process).calling)
    (references : known.references = (ghost process).references)
    (taken : adjust' 1 = known.taken id)
    (takenOthers : ∀ other, other ≠ id → known.taken other = (ghost process).taken other)
    (held : adjust' 2 = if known.point.lock = some id then -1 else 0)
    (heldOthers : ∀ other, other ≠ id →
      (known.point.lock = some other ↔ (ghost process).point.lock = some other))
    (one : values' 2 ≤ 1) (unset : state.settings id 1 = 0 → values' 1 = 0)
    (notHalf : ∀ id, (ghost process).point ≠ .half id)
    (created : ∀ other, known.point = .created other → ∀ one, one ≠ process →
      (ghost one).point ≠ .removing other)
    (notRemoving : ∀ id, known.point ≠ .removing id)
    (value : ∀ other, other ≠ process → (ghost other).point = .removing id → timely →
      values' 1 = values 1)
    (few : owed (fun one => state.semadj one id) 1 + (adjust' 1 - state.semadj process id 1) <
      BIGCOUNT)
    (placed : Placed timely unslept process known after) :
    Valid timely unslept (Function.update ghost process known) after := by
  have present (other : Nat) : after.sets other ≠ none ↔ state.sets other ≠ none := by
    rw [operated.sets]
    by_cases same : other = id
    · rw [same, Function.update_self, isValues]
      exact iff_of_true (Option.some_ne_none _) (Option.some_ne_none _)
    · rw [Function.update_of_ne same]
  apply valid.step
  · intro key other isNamed
    rw [operated.ids] at isNamed
    exact (present other).mpr (valid.named key other isNamed)
  · intro other isPresent
    rw [operated.created]
    exact valid.below other ((present other).mp isPresent)
  · rw [operated.created]
  · rw [operated.created, operated.settings]
    exact valid.unset
  · intro other outside
    rw [operated.created] at outside
    have different : other ≠ id := by
      intro same
      have below := valid.below id (by rw [isValues]; exact Option.some_ne_none _)
      omega
    rw [takenOthers other different]
    exact valid.untaken other outside process
  · rw [operated.calling]
    exact valid.calling_update calling
  · rw [operated.references]
    exact valid.references_update references
  · intro other isHeld
    rw [present]
    by_cases same : other = id
    · rw [same, isValues]
      exact Option.some_ne_none _
    · exact valid.held process other ((heldOthers other same).mp isHeld)
  · exact fun other absent isPresent => absurd absent ((present other).mpr isPresent)
  · exact created
  · exact fun other isRemoving => absurd isRemoving (notRemoving other)
  · exact placed
  · intro other different
    apply (valid.placed other).keep (operated.asleep other different) (operated.answer other different)
    · rw [operated.removals]
    · exact fun one isPresent absent => absurd absent ((present one).mpr isPresent)
    · rw [operated.settings]
      exact fun _ _ => rfl
    · intro one isRemoving prompt after' isAfter
      rw [operated.sets] at isAfter
      by_cases same : one = id
      · rw [same] at isAfter isRemoving ⊢
        rw [Function.update_self] at isAfter
        rw [← Option.some.inj isAfter]
        exact ⟨values, isValues, (value other different isRemoving prompt).symm⟩
      · rw [Function.update_of_ne same] at isAfter
        exact ⟨after', isAfter, rfl⟩
  · intro other after' isAfter
    rw [operated.sets] at isAfter
    rw [operated.settings, operated.semadj]
    by_cases same : other = id
    · rw [same] at isAfter ⊢
      rw [Function.update_self] at isAfter
      rw [← Option.some.inj isAfter]
      have rows : (fun one => Function.update state.semadj process
          (Function.update (state.semadj process) id adjust') one id) =
          Function.update (fun one => state.semadj one id) process adjust' := by
        funext one
        by_cases mine : one = process
        · rw [mine, Function.update_self, Function.update_self, Function.update_self]
        · rw [Function.update_of_ne mine, Function.update_of_ne mine]
      rw [rows]
      exact (valid.counted id values isValues).operated undo done taken held one unset (notHalf id)
        few
    · rw [Function.update_of_ne same] at isAfter
      have rows : (fun one => Function.update state.semadj process
          (Function.update (state.semadj process) id adjust') one other) =
          fun one => state.semadj one other := by
        funext one
        by_cases mine : one = process
        · rw [mine, Function.update_self, Function.update_of_ne same]
        · rw [Function.update_of_ne mine]
      rw [rows]
      apply (valid.counted other after' isAfter).keep (takenOthers other same)
        (heldOthers other same)
      exact fun _ isHalf => absurd isHalf (notHalf other)

theorem Valid.create (valid : Valid timely unslept ghost state) {key : Int} {round : Nat}
    (unlocked : (ghost process).point.lock = none)
    (unopened : (ghost process).point.extra = none) (rounds : round ≤ state.removals) :
    Valid timely unslept (Function.update ghost process
      { ghost process with point := .got state.created round })
      ((state.told process none).create key) := by
  let known : Known := { ghost process with point := .got state.created round }
  have fresh : state.sets state.created = none := by
    by_contra present
    exact Nat.lt_irrefl _ (valid.below state.created present)
  have taken (id : Nat) : known.taken id = (ghost process).taken id := by
    rw [Known.taken, Known.taken, unopened]
    rfl
  have sets (id : Nat) (different : id ≠ state.created) :
      ((state.told process none).create key).sets id = state.sets id :=
    Function.update_of_ne different _ _
  have kept (id : Nat) (present : state.sets id ≠ none) :
      ((state.told process none).create key).sets id ≠ none := by
    have different : id ≠ state.created := by
      intro same
      rw [same] at present
      exact present fresh
    rw [sets id different]
    exact present
  have new : ((state.told process none).create key).sets state.created = some fun _ => 0 :=
    Function.update_self _ _ _
  apply @Valid.step _ _ _ _ _ _ _ _ process known valid
  · intro name id isNamed
    change Function.update state.ids key (some state.created) name = some id at isNamed
    by_cases same : name = key
    · rw [same, Function.update_self] at isNamed
      rw [← Option.some.inj isNamed, new]
      exact Option.some_ne_none _
    · rw [Function.update_of_ne same] at isNamed
      exact kept id (valid.named name id isNamed)
  · intro id present
    change id < state.created + 1
    by_cases same : id = state.created
    · rw [same]
      exact Nat.lt_succ_self _
    · rw [sets id same] at present
      exact Nat.lt_succ_of_lt (valid.below id present)
  · exact Nat.le_succ _
  · exact fun id outside => valid.unset id (Nat.le_of_succ_le outside)
  · intro id outside
    rw [taken]
    exact valid.untaken id (Nat.le_of_succ_le outside) process
  · exact valid.calling_update rfl
  · exact valid.references_update rfl
  · exact nofun
  · exact fun id absent present => absurd absent (kept id present)
  · exact nofun
  · exact nofun
  · refine ⟨rounds, fun absent => ?_⟩
    rw [new] at absent
    cases absent
  · intro other different
    refine (valid.placed other).keep rfl ?_ ?_ ?_ ?_ ?_
    · exact Function.update_of_ne different _ _
    · exact Nat.le_refl _
    · exact fun id present absent => absurd absent (kept id present)
    · exact fun _ _ => rfl
    · intro id isRemoving _ values isValues
      have present := valid.held other id (by rw [isRemoving]; rfl)
      have old : id ≠ state.created := by
        intro same
        rw [same] at present
        exact present fresh
      rw [sets id old] at isValues
      exact ⟨values, isValues, rfl⟩
  · intro id values isValues
    by_cases same : id = state.created
    · rw [same] at isValues ⊢
      rw [new] at isValues
      rw [← Option.some.inj isValues]
      have rows : (fun one => ((state.told process none).create key).semadj one state.created) =
          fun (_ : Process) (_ : Member) => (0 : Int) := by
        funext one
        exact Function.update_self _ _ _
      have nothing (num : Member) : owed (fun (_ : Process) (_ : Member) => (0 : Int)) num = 0 :=
        Finset.sum_const_zero
      rw [rows]
      have locks (one : Process) : (Function.update ghost process known one).point.lock ≠
          some state.created := by
        intro isHeld
        by_cases mine : one = process
        · rw [mine, Function.update_self] at isHeld
          cases isHeld
        · rw [Function.update_of_ne mine] at isHeld
          exact valid.held one _ isHeld fresh
      constructor
      · intro one
        by_cases mine : one = process
        · rw [mine, Function.update_self, taken, valid.untaken _ (Nat.le_refl _)]
          rfl
        · rw [Function.update_of_ne mine, valid.untaken _ (Nat.le_refl _)]
          rfl
      · intro one
        rw [if_neg (locks one)]
      · rw [nothing]
        rfl
      · exact ⟨Int.le_refl _, Int.zero_le_ofNat 1⟩
      · exact Or.inl ⟨valid.unset _ (Nat.le_refl _) 1, rfl, nothing 1⟩
      · exact fun _ => Or.inl (valid.unset _ (Nat.le_refl _) 0)
      · rw [nothing]
        decide
    · rw [sets id same] at isValues
      have rows : (fun one => ((state.told process none).create key).semadj one id) =
          fun one => state.semadj one id := by
        funext one
        exact Function.update_of_ne same _ _
      rw [rows]
      apply (valid.counted id values isValues).keep (taken id)
      · rw [unlocked]
        exact Iff.rfl
      · intro _ isHalf
        rw [isHalf] at unlocked
        cases unlocked

/-- `sem_create` sets a member of a set that nobody has open. -/
theorem Valid.set (valid : Valid timely unslept ghost state) {id : Nat} {num : Member}
    {val : Int} {values : Member → Int} (isValues : state.sets id = some values)
    (calling : known.calling = (ghost process).calling)
    (references : known.references = (ghost process).references)
    (extra : known.point.extra = (ghost process).point.extra)
    (before : (ghost process).point.lock = some id) (lock : known.point.lock = some id)
    (unset : state.settings id 1 = 0) (notCreated : ∀ id, known.point ≠ .created id)
    (notRemoving : ∀ id, known.point ≠ .removing id)
    (placed : Placed timely unslept process known ((state.told process none).set id num values val))
    (counted : Counted (Function.update ghost process known) id
      (Function.update (state.settings id) num (state.settings id num + 1))
      (fun one => Function.update (state.semadj one id) num 0) (Function.update values num val)) :
    Valid timely unslept (Function.update ghost process known)
      ((state.told process none).set id num values val) := by
  have taken (other : Nat) : known.taken other = (ghost process).taken other := by
    rw [Known.taken, Known.taken, references, extra]
  have sets (other : Nat) (different : other ≠ id) :
      ((state.told process none).set id num values val).sets other = state.sets other :=
    Function.update_of_ne different _ _
  have settings (other : Nat) (different : other ≠ id) :
      ((state.told process none).set id num values val).settings other = state.settings other :=
    Function.update_of_ne different _ _
  have here : ((state.told process none).set id num values val).sets id =
      some (Function.update values num val) := Function.update_self _ _ _
  have isPresent : state.sets id ≠ none := by
    rw [isValues]
    exact Option.some_ne_none _
  have present (other : Nat) :
      ((state.told process none).set id num values val).sets other ≠ none ↔ state.sets other ≠ none := by
    by_cases same : other = id
    · rw [same, here]
      exact iff_of_true (Option.some_ne_none _) isPresent
    · rw [sets other same]
  have alone (other : Process) (different : other ≠ process) : (ghost other).point.lock ≠ some id :=
    fun others => different ((valid.counted id values isValues).exclusive before others)
  apply valid.step
  · exact fun name other isNamed => (present other).mpr (valid.named name other isNamed)
  · exact fun other isThere => valid.below other ((present other).mp isThere)
  · exact Nat.le_refl _
  · intro other outside num'
    have different : other ≠ id := by
      intro same
      have below := valid.below id isPresent
      change state.created ≤ other at outside
      omega
    rw [settings other different]
    exact valid.unset other outside num'
  · intro other outside
    rw [taken]
    exact valid.untaken other outside process
  · exact valid.calling_update calling
  · exact valid.references_update references
  · intro other isHeld
    rw [lock] at isHeld
    rw [present, ← Option.some.inj isHeld]
    exact isPresent
  · exact fun other absent isThere => absurd absent ((present other).mpr isThere)
  · exact fun other isCreated => absurd isCreated (notCreated other)
  · exact fun other isRemoving => absurd isRemoving (notRemoving other)
  · exact placed
  · intro other different
    refine (valid.placed other).keep rfl ?_ ?_ ?_ ?_ ?_
    · exact Function.update_of_ne different _ _
    · exact Nat.le_refl _
    · exact fun one isThere absent => absurd absent ((present one).mpr isThere)
    · intro one either
      apply settings
      intro same
      rw [same] at either
      rcases either with isHeld | isCreated
      · exact alone other different isHeld
      · have isPlaced := valid.placed other
        rw [Placed, isCreated] at isPlaced
        have isSet := isPlaced.2.2
        omega
    · intro one isRemoving _ after' isAfter
      have elsewhere : one ≠ id := by
        intro same
        rw [same] at isRemoving
        exact alone other different (congrArg Point.lock isRemoving)
      rw [sets one elsewhere] at isAfter
      exact ⟨after', isAfter, rfl⟩
  · intro other after' isAfter
    by_cases same : other = id
    · rw [same] at isAfter ⊢
      rw [here] at isAfter
      rw [← Option.some.inj isAfter]
      have rows : (fun one => ((state.told process none).set id num values val).semadj one id) =
          fun one => Function.update (state.semadj one id) num 0 := by
        funext one
        exact Function.update_self _ _ _
      have here' : ((state.told process none).set id num values val).settings id =
          Function.update (state.settings id) num (state.settings id num + 1) :=
        Function.update_self _ _ _
      rw [rows, here']
      exact counted
    · rw [sets other same] at isAfter
      have rows : (fun one => ((state.told process none).set id num values val).semadj one other) =
          fun one => state.semadj one other := by
        funext one
        exact Function.update_of_ne same _ _
      rw [settings other same, rows]
      have elsewhere : some id ≠ some other := fun equal => same (Option.some.inj equal).symm
      apply (valid.counted other after' isAfter).keep (taken other)
      · rw [lock, before]
      · intro _ isHalf
        rw [isHalf] at before
        exact absurd before.symm elsewhere

/-- `sem_close` removes a set. -/
theorem Valid.remove (valid : Valid timely unslept ghost state) {id : Nat}
    (isPoint : (ghost process).point = .removing id)
    (awake : unslept → ∀ other, state.asleep other ≠ some (id, op_lock)) :
    Valid timely unslept (Function.update ghost process { ghost process with point := .resting })
      ((state.told process none).remove id) := by
  let known : Known := { ghost process with point := .resting }
  have taken (other : Nat) : known.taken other = (ghost process).taken other := by
    rw [Known.taken, Known.taken, isPoint]
    rfl
  have before : (ghost process).point.lock = some id := congrArg Point.lock isPoint
  rcases Option.ne_none_iff_exists'.mp (valid.held process id before) with ⟨values, isValues⟩
  have alone (other : Process) (different : other ≠ process) : (ghost other).point.lock ≠ some id :=
    fun others => different ((valid.counted id values isValues).exclusive before others)
  have gone : ((state.told process none).remove id).sets id = none := Function.update_self _ _ _
  have sets (other : Nat) (different : other ≠ id) :
      ((state.told process none).remove id).sets other = state.sets other :=
    Function.update_of_ne different _ _
  have lost (other : Nat) (absent : ((state.told process none).remove id).sets other = none)
      (present : state.sets other ≠ none) : other = id := by
    by_contra different
    rw [sets other different] at absent
    exact present absent
  have still (other : Nat) (present : ((state.told process none).remove id).sets other ≠ none) :
      other ≠ id ∧ state.sets other ≠ none := by
    have different : other ≠ id := by
      intro same
      rw [same] at present
      exact present gone
    rw [sets other different] at present
    exact ⟨different, present⟩
  apply @Valid.step _ _ _ _ _ _ _ _ process known valid
  · intro name other isNamed
    change (if state.ids name = some id then none else state.ids name) = some other at isNamed
    by_cases isThis : state.ids name = some id
    · rw [if_pos isThis] at isNamed
      cases isNamed
    · rw [if_neg isThis] at isNamed
      have different : other ≠ id := by
        intro same
        rw [same] at isNamed
        exact isThis isNamed
      rw [sets other different]
      exact valid.named name other isNamed
  · exact fun other present => valid.below other (still other present).2
  · exact Nat.le_refl _
  · exact valid.unset
  · intro other outside
    rw [taken]
    exact valid.untaken other outside process
  · exact valid.calling_update rfl
  · exact valid.references_update rfl
  · exact nofun
  · intro other absent present one different
    rw [lost other absent present]
    exact alone one different
  · exact nofun
  · exact nofun
  · exact trivial
  · intro other different
    refine (valid.placed other).keep rfl ?_ ?_ ?_ ?_ ?_
    · exact Function.update_of_ne different _ _
    · exact Nat.le_succ _
    · intro one present absent
      rw [lost one absent present]
      refine ⟨Nat.lt_succ_self _, fun prompt => awake prompt other, fun isCreated => ?_⟩
      exact valid.kept other process id isCreated isPoint
    · exact fun _ _ => rfl
    · intro one isRemoving _ after' isAfter
      have elsewhere := (still one (by rw [isAfter]; exact Option.some_ne_none _)).1
      rw [sets one elsewhere] at isAfter
      exact ⟨after', isAfter, rfl⟩
  · intro other after' isAfter
    have elsewhere := (still other (by rw [isAfter]; exact Option.some_ne_none _)).1
    rw [sets other elsewhere] at isAfter
    apply (valid.counted other after' isAfter).keep (taken other)
    · rw [isPoint]
      exact iff_of_false nofun fun equal => elsewhere (Option.some.inj equal).symm
    · intro _ isHalf
      rw [isPoint] at isHalf
      cases isHalf

theorem Counted.exited {id : Nat} {settings : Member → Nat} {rows : Process → Member → Int}
    {values : Member → Int} (counted : Counted ghost id settings rows values)
    (taken : known.taken id = 0) (lock : known.point.lock = none)
    (notHalf : (ghost process).point ≠ .half id) :
    Counted (Function.update ghost process known) id settings
      (Function.update rows process fun _ => 0)
      (fun num => givenBack SEMVMX (values num) (rows process num)) := by
  have least := counted.taken_le process
  have isTaken := counted.taken process
  have isHeld := counted.held process
  have isLock := counted.lock
  have isFree := counted.free
  have value := counted.value
  have locked : givenBack SEMVMX (values 2) (rows process 2) = values 2 + rows process 2 ∧
      values 2 + rows process 2 ≤ 1 := by
    have low : 0 ≤ values 2 + rows process 2 := by
      rw [isHeld]
      by_cases held : (ghost process).point.lock = some id
      · rw [if_pos held]
        have occupied := counted.occupied held
        omega
      · rw [if_neg held]
        omega
    have high : values 2 + rows process 2 ≤ 1 := by
      rw [isHeld]
      split <;> omega
    refine ⟨?_, high⟩
    rw [givenBack, SEMVMX]
    omega
  have total : givenBack SEMVMX (values 1) (rows process 1) = values 1 + rows process 1 := by
    rw [givenBack, SEMVMX]
    rcases counted.counter with ⟨_, zero, nothing⟩ | ⟨_, _, total⟩
    · omega
    · rw [BIGCOUNT] at total value
      omega
  constructor
  · intro other
    by_cases same : other = process
    · rw [same, Function.update_self, Function.update_self, taken]
      rfl
    · rw [Function.update_of_ne same, Function.update_of_ne same, counted.taken]
  · intro other
    by_cases same : other = process
    · rw [same, Function.update_self, Function.update_self, if_neg (by rw [lock]; exact nofun)]
    · rw [Function.update_of_ne same, Function.update_of_ne same, counted.held]
  · rw [owed_update, locked.1]
    omega
  · rw [locked.1]
    refine ⟨?_, locked.2⟩
    rw [← locked.1, givenBack]
    exact Int.le_max_left _ _
  · rw [owed_update, total]
    rcases counted.counter with ⟨isUnset, zero, nothing⟩ | ⟨isSet, isSet', total⟩
    · exact Or.inl ⟨isUnset, by omega, by omega⟩
    · exact Or.inr ⟨isSet, isSet', by omega⟩
  · intro isUnset
    refine (counted.halfway isUnset).imp_right ?_
    rintro ⟨other, isHalf⟩
    refine ⟨other, ?_⟩
    have different : other ≠ process := by
      intro same
      rw [same] at isHalf
      exact notHalf isHalf
    rw [Function.update_of_ne different]
    exact isHalf
  · have few := counted.few
    rw [owed_update]
    omega

/-- A process ends. -/
theorem Valid.exit (valid : Valid timely unslept ghost state)
    (notHalf : ∀ id, (ghost process).point ≠ .half id) :
    Valid timely unslept (Function.update ghost process
      ⟨.resting, fun _ => 0, (ghost process).calling⟩) ((state.told process none).exit process) := by
  let known : Known := ⟨.resting, fun _ => 0, (ghost process).calling⟩
  have present (id : Nat) :
      ((state.told process none).exit process).sets id ≠ none ↔ state.sets id ≠ none := by
    change Option.map _ (state.sets id) ≠ none ↔ _
    rw [ne_eq, Option.map_eq_none_iff]
  apply @Valid.step _ _ _ _ _ _ _ _ process known valid
  · exact fun name id isNamed => (present id).mpr (valid.named name id isNamed)
  · exact fun id isThere => valid.below id ((present id).mp isThere)
  · exact Nat.le_refl _
  · exact valid.unset
  · exact fun _ _ => rfl
  · exact valid.calling_update rfl
  · rfl
  · exact nofun
  · exact fun id absent isThere => absurd absent ((present id).mpr isThere)
  · exact nofun
  · exact nofun
  · exact trivial
  · intro other different
    refine (valid.placed other).keep rfl ?_ ?_ ?_ ?_ ?_
    · exact Function.update_of_ne different _ _
    · exact Nat.le_refl _
    · exact fun id isThere absent => absurd absent ((present id).mpr isThere)
    · exact fun _ _ => rfl
    · intro id isRemoving prompt after' isAfter
      rcases Option.map_eq_some_iff.mp isAfter with ⟨values, isValues, rfl⟩
      refine ⟨values, isValues, ?_⟩
      -- Nobody has the set open, so there is nothing to give back.
      have counted := valid.counted id values isValues
      have isPlaced := valid.placed other
      rw [Placed, isRemoving] at isPlaced
      have full := isPlaced.2.2.2 prompt values isValues
      have nothing : state.semadj process id 1 = 0 := by
        have least := counted.taken_le process
        have isTaken := counted.taken process
        rcases counted.counter with ⟨_, _, nothing⟩ | ⟨_, _, total⟩
        · omega
        · omega
      change values 1 = givenBack SEMVMX (values 1) (state.semadj process id 1)
      rw [nothing, full]
      decide
  · intro id after' isAfter
    rcases Option.map_eq_some_iff.mp isAfter with ⟨values, isValues, rfl⟩
    have rows : (fun one => ((state.told process none).exit process).semadj one id) =
        Function.update (fun one => state.semadj one id) process fun _ => 0 := by
      funext one
      by_cases mine : one = process
      · rw [mine, Function.update_self]
        exact congrFun (Function.update_self process (fun _ _ => (0 : Int)) state.semadj) id
      · rw [Function.update_of_ne mine]
        exact congrFun (Function.update_of_ne mine (fun _ _ => (0 : Int)) state.semadj) id
    rw [rows]
    exact (valid.counted id values isValues).exited rfl rfl (notHalf id)

end Valid

end Apue.Semaphore
