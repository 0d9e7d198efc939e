import Apue.Semaphore.Users

/-! # What sets of semaphores guarantee to their users

A set is not removed while a process has it open, if no `sem_open` comes between the
decision of a `sem_close` and its removal. `sem_create` returns a set that is there, if no
set is removed while a `sem_create` sleeps.
-/

namespace Apue.Semaphore

open Apue.Foundation

variable {Process : Type} [DecidableEq Process]

/-- Steps that are taken only when a condition holds. -/
def StepUnder (guard : Command → State Process → Prop) (process : Process) (command : Command)
    (before : State Process) (response : Response command) (after : State Process) : Prop :=
  Step process command before response after ∧ guard command before

/-- What a process does next while a condition holds. -/
def performUnder (guard : Command → State Process → Prop)
    [∀ command state, Decidable (guard command state)] (process : Process) (command : Command)
    (before : State Process) : Option (Response command × State Process) :=
  if guard command before then kernel process command (before.told process none) else none

theorem stepUnder_of_perform {guard : Command → State Process → Prop}
    [∀ command state, Decidable (guard command state)] {process : Process} {command : Command}
    {before after : State Process} {response : Response command}
    (performed : performUnder guard process command before = some (response, after)) :
    StepUnder guard process command before response after := by
  rw [performUnder] at performed
  by_cases holds : guard command before
  · rw [if_pos holds] at performed
    exact ⟨kernel_steps performed, holds⟩
  · rw [if_neg holds] at performed
    cases performed

theorem reachable_of_turns {guard : Command → State Process → Prop}
    [∀ command state, Decidable (guard command state)] {before after : Processes Process}
    {turns : List Process}
    (taken : turns.foldlM (fun pool process => pool.turn (performUnder guard) process) before =
      some after) :
    Pool.Reachable (StepUnder guard) before after :=
  Pool.Reachable.mono (fun _ _ _ _ _ => stepUnder_of_perform) (Pool.reachable_of_turns taken)

/-- A process that closes what it has opened. -/
def Client.uses (call : Call) : Client :=
  .call call fun result => match call.opens result with
    | some id => .call (.close id) fun _ => .done ()
    | none => .done ()

theorem uses_careful {call : Call} (opens : ∀ id, call ≠ .close id) (references : Nat → Nat) :
    (Client.uses call).Careful references := by
  refine ⟨fun id isClose => absurd isClose (opens id), fun result => ?_⟩
  dsimp only
  cases call.opens result with
  | none => exact trivial
  | some id =>
      refine ⟨fun other isClose => ?_, fun _ => trivial⟩
      cases isClose
      rw [taking, Function.update_self]
      exact Nat.succ_pos _

variable [Fintype Process] {timely unslept : Prop} {rounds : Nat} {clients : Process → Client}
  {processes : Processes Process}

omit [DecidableEq Process] in
theorem start_valid : Valid timely unslept (fun _ => ⟨.resting, fun _ => 0, none⟩)
    (start rounds clients).state where
  named := nofun
  below := fun _ absent => absurd rfl absent
  unset := fun _ _ _ => rfl
  untaken := fun _ _ _ => rfl
  calling := fun _ => rfl
  references := fun _ => rfl
  held := nofun
  kept := nofun
  placed := fun _ => trivial
  counted := nofun

/-- Every state that careful processes reach. -/
theorem safe_of_reached {guard : Command → State Process → Prop}
    (few : ∀ command state, guard command state → Few command state)
    (prompt : ∀ command state, guard command state → timely → Timely command state)
    (awake : ∀ command state, guard command state → unslept → Unslept command state)
    (careful : ∀ process, (clients process).Careful fun _ => 0)
    (reached : Pool.Reachable (StepUnder guard) (start rounds clients) processes) :
    (semLogic Process timely unslept rounds).PoolSafe (fun _ => Idle) processes := by
  have started : (semLogic Process timely unslept rounds).PoolSafe (fun _ => Idle)
      (start rounds clients) :=
    ⟨_, start_valid, fun process => client_safe (careful process)⟩
  apply started.reachable
  apply Pool.Reachable.mono _ reached
  intro process command state response after stepped
  exact ⟨stepped.1, few command state stepped.2, prompt command state stepped.2,
    awake command state stepped.2⟩

/-! ## The removal of a set -/

/-- A set is only removed when no process has it open. -/
theorem removes_unused (careful : ∀ process, (clients process).Careful fun _ => 0)
    (reached : Pool.Reachable (StepUnder fun command state => Few command state ∧ Timely command state)
      (start rounds clients) processes)
    {process : Process} {id : Nat} (removes : Next processes process (.rmid id)) (other : Process) :
    processes.state.references other id = 0 := by
  have reachedSafe := @safe_of_reached _ _ _ True False _ _ _ _ (fun _ _ guard => guard.1)
    (fun _ _ guard _ => guard.2) (fun _ _ _ => False.elim) careful reached
  rcases reachedSafe with ⟨ghost, valid, safe⟩
  have isPoint : (ghost process).point = .removing id := permitted_of_next safe removes
  have present := valid.held process id (congrArg Point.lock isPoint)
  rcases Option.ne_none_iff_exists'.mp present with ⟨values, isValues⟩
  have counted := valid.counted id values isValues
  have placed := valid.placed process
  rw [Placed, isPoint] at placed
  have full := placed.2.2.2 trivial values isValues
  have nothing : owed (fun one => processes.state.semadj one id) 1 = 0 := by
    rcases counted.counter with ⟨_, _, nothing⟩ | ⟨_, _, total⟩
    · exact nothing
    · omega
  have least := counted.taken_le other
  have isTaken : (ghost other).references id ≤ (ghost other).taken id := Nat.le_add_right _ _
  rw [valid.references]
  omega

/-- One process creates the set, and another opens it and closes it last. -/
def creatorAndOpener : Bool → Client
  | true => .uses (.create 5 1)
  | false => .uses (.open_ 5)

theorem creatorAndOpener_careful (process : Bool) :
    (creatorAndOpener process).Careful fun _ => 0 := by
  cases process with
  | true =>
      have opens : ∀ id, Call.create 5 1 ≠ .close id := nofun
      exact uses_careful opens _
  | false =>
      have opens : ∀ id, Call.open_ 5 ≠ .close id := nofun
      exact uses_careful opens _

theorem removes_unused_last : ∃ processes : Processes Bool,
    Next processes false (.rmid 0) ∧ processes.state.references true 0 = 0 := by
  let turns := List.replicate 8 true ++ List.replicate 4 false ++ List.replicate 5 true ++
    List.replicate 3 false
  have ran : ∃ processes, turns.foldlM (fun pool process => pool.turn (performUnder
        fun command state => Few command state ∧ Timely command state) process)
        (start 1 creatorAndOpener) = some processes ∧ Next processes false (.rmid 0) :=
    ⟨_, rfl, _, rfl⟩
  rcases ran with ⟨processes, ran, removes⟩
  exact ⟨processes, removes,
    removes_unused creatorAndOpener_careful (reachable_of_turns ran) removes true⟩

/-- A `sem_open` may come between the decision of a `sem_close` and its removal. -/
theorem removes_used : ¬ ∀ (rounds : Nat) (clients : Bool → Client),
    (∀ process, (clients process).Careful fun _ => 0) → ∀ processes : Processes Bool,
    Pool.Reachable (StepUnder Few) (start rounds clients) processes → ∀ process other id,
    other ≠ process → Next processes process (.rmid id) →
    processes.state.references other id = 0 := by
  intro holds
  let turns := List.replicate 11 true ++ List.replicate 4 false
  have ran : ∃ processes, turns.foldlM (fun pool process => pool.turn (performUnder Few) process)
        (start 1 creatorAndOpener) = some processes ∧ Next processes true (.rmid 0) ∧
      processes.state.references false 0 = 1 :=
    ⟨_, rfl, ⟨_, rfl⟩, rfl⟩
  rcases ran with ⟨processes, ran, removes, used⟩
  have unused := holds 1 creatorAndOpener creatorAndOpener_careful processes
    (reachable_of_turns ran) true false 0 Bool.noConfusion removes
  omega

/-! ## How many sets are removed -/

def Command.removes : Command → Bool
  | .rmid _ => true
  | _ => false

def Call.closes : Call → Bool
  | .close _ => true
  | _ => false

section Functions

variable {Result : Type}

theorem ended_removes : (ended : Code Result).AtMost Command.removes 0 :=
  ⟨0, Nat.le_refl 0, nofun⟩

theorem err_sys_removes (message : String) (errno : Errno) :
    (err_sys message errno : Code Result).AtMost Command.removes 0 :=
  (Program.AtMost.perform rfl).behind fun _ => ended_removes

theorem err_dump_removes (message : String) :
    (err_dump message : Code Result).AtMost Command.removes 0 :=
  (Program.AtMost.perform rfl).behind fun _ => ended_removes

theorem orExit_removes {message : String} (answer : Except Errno Result) :
    (orExit message answer).AtMost Command.removes 0 := by
  cases answer with
  | ok => exact trivial
  | error errno => exact err_sys_removes message errno

theorem semop_removes (id : Nat) (ops : List SemBuf) : (semop id ops).AtMost Command.removes 0 := by
  refine (Program.AtMost.perform rfl).behind fun answer => ?_
  cases answer with
  | some => exact trivial
  | none => exact Program.AtMost.perform rfl

theorem initialize_removes (id : Nat) (initval semval : Int) :
    (initialize_ id initval semval).AtMost Command.removes 0 := by
  rw [initialize_]
  split
  · refine (Program.AtMost.perform rfl).behind fun _ => ?_
    refine (orExit_removes _).behind fun _ => ?_
    refine (Program.AtMost.perform rfl).behind fun _ => ?_
    exact orExit_removes _
  · exact trivial

theorem again_removes (key initval : Int) (rounds : Nat) :
    (again key initval rounds).AtMost Command.removes 0 := by
  induction rounds with
  | zero => exact ⟨0, Nat.le_refl 0, fun response => by cases response⟩
  | succ rounds hypothesis =>
      rw [again]
      refine (Program.AtMost.perform rfl).behind fun known => ?_
      cases known with
      | none => exact trivial
      | some id =>
          refine (semop_removes id op_lock).behind fun answer => ?_
          cases answer with
          | error failure =>
              cases failure with
              | EINVAL => exact hypothesis
              | EIDRM => exact err_sys_removes "can't lock" .EIDRM
              | ERANGE => exact err_sys_removes "can't lock" .ERANGE
          | ok =>
              refine (Program.AtMost.perform rfl).behind fun answer => ?_
              refine (orExit_removes _).behind fun semval => ?_
              refine (initialize_removes id initval semval).behind fun _ => ?_
              refine (semop_removes id op_endcreate).behind fun answer => ?_
              exact (orExit_removes _).behind fun _ => trivial

theorem sem_create_removes (rounds : Nat) (key initval : Int) :
    (sem_create rounds key initval).AtMost Command.removes 0 := by
  rw [sem_create]
  split
  · exact trivial
  · split
    · exact trivial
    · exact again_removes key initval rounds

theorem sem_open_removes (key : Int) : (sem_open key).AtMost Command.removes 0 := by
  rw [sem_open]
  split
  · exact trivial
  · split
    · exact trivial
    · refine (Program.AtMost.perform rfl).behind fun known => ?_
      cases known with
      | none => exact trivial
      | some id =>
          refine (semop_removes id op_open).behind fun answer => ?_
          exact (orExit_removes _).behind fun _ => trivial

theorem sem_op_removes (id : Nat) (value : Int) : (sem_op id value).AtMost Command.removes 0 :=
  (semop_removes id (op_op value)).behind fun _ => orExit_removes _

theorem sem_close_removes (id : Nat) : (sem_close id).AtMost Command.removes 1 := by
  refine (semop_removes id op_close).behind fun answer => ?_
  refine (orExit_removes _).behind fun _ => ?_
  refine (Program.AtMost.perform rfl).behind fun answer => ?_
  refine (orExit_removes _).behind fun semval => ?_
  split
  · exact (err_dump_removes "sem[1] > BIGCOUNT").mono (Nat.zero_le 1)
  · split
    · exact ⟨0, Nat.le_refl 1, fun answer => orExit_removes answer⟩
    · have unlocks : (do orExit "can't unlock" (← semop id op_unlock) : Code Unit).AtMost
          Command.removes 0 := (semop_removes id op_unlock).behind fun _ => orExit_removes _
      exact unlocks.mono (Nat.zero_le 1)

theorem code_removes (rounds : Nat) (call : Call) :
    (code rounds call).AtMost Command.removes call.closes.toNat := by
  cases call with
  | create key initval => exact sem_create_removes rounds key initval
  | open_ key => exact sem_open_removes key
  | wait id => exact (sem_op_removes id (-1)).behind fun _ => trivial
  | signal id => exact (sem_op_removes id 1).behind fun _ => trivial
  | close id =>
      have nothing (result : Unit) :
          (Program.done none : Code (Option Nat)).AtMost Command.removes 0 := trivial
      exact (sem_close_removes id).bind nothing

theorem run_removes {rounds bound : Nat} {client : Client} (atMost : client.AtMost Call.closes bound) :
    (client.run rounds).AtMost Command.removes bound := by
  induction client generalizing bound with
  | done => exact trivial
  | call call next hypothesis =>
      rcases atMost with ⟨rest, enough, continued⟩
      refine (Program.AtMost.perform rfl).behind fun _ => ?_
      have runs : (code rounds call >>= fun result => do
          Program.perform (Command.returns call result)
          Client.run rounds (next result)).AtMost Command.removes (call.closes.toNat + rest) := by
        refine (code_removes rounds call).bind fun result => ?_
        refine (Program.AtMost.perform rfl).behind fun _ => ?_
        exact hypothesis result (continued result)
      exact runs.mono (by omega)

end Functions

omit [Fintype Process] in
theorem step_removals {process : Process} {command : Command} {before after : State Process}
    {response : Response command} (stepped : Step process command before response after) :
    after.removals ≤ before.removals + command.removes.toNat := by
  rw [Step] at stepped
  have same : (before.told process none).removals = before.removals := rfl
  rw [← same]
  generalize before.told process none = told at stepped
  cases command with
  | semget key create =>
      rcases stepped with ⟨_, rfl⟩ | stepped
      · exact Nat.le_refl _
      · split at stepped
        · rw [stepped.2]
          exact Nat.le_refl _
        · rw [stepped.2.2]
          exact Nat.le_refl _
  | semop id ops =>
      rw [KernelStep] at stepped
      split at stepped
      · rw [stepped.2]
        exact Nat.le_refl _
      · split at stepped
        all_goals
          rw [stepped.2]
          exact Nat.le_refl _
  | awake id ops =>
      rw [KernelStep] at stepped
      split at stepped
      · rw [stepped.2]
        exact Nat.le_refl _
      · split at stepped
        · rw [stepped.2]
          exact Nat.le_refl _
        · exact stepped.elim
        · rw [stepped.2]
          exact Nat.le_refl _
  | getval id num =>
      rw [KernelStep] at stepped
      split at stepped
      all_goals
        rw [stepped.2]
        exact Nat.le_refl _
  | setval id num val =>
      rw [KernelStep] at stepped
      split at stepped
      · rw [stepped.2]
        exact Nat.le_refl _
      · split at stepped
        all_goals
          rw [stepped.2]
          exact Nat.le_refl _
  | rmid id =>
      rw [KernelStep] at stepped
      split at stepped
      · rw [stepped.2]
        exact Nat.le_succ _
      · rw [stepped.2]
        exact Nat.le_refl _
  | exit | calls | returns =>
      have isAfter := stepped
      rw [KernelStep] at isAfter
      rw [isAfter]
      exact Nat.le_refl _
  | ended | outOfRounds => exact stepped.elim

/-- No more sets are removed than the processes close. -/
theorem removals_le {guard : Command → State Process → Prop} {closings : Process → Nat}
    (bounded : ∀ process, (clients process).AtMost Call.closes (closings process))
    (reached : Pool.Reachable (StepUnder guard) (start rounds clients) processes) :
    processes.state.removals ≤ ∑ process, closings process := by
  have counts (process : Process) (command : Command) (before : State Process)
      (response : Response command) (after : State Process)
      (stepped : StepUnder guard process command before response after) :
      after.removals ≤ before.removals + command.removes.toNat := step_removals stepped.1
  rcases reached.counted counts fun process => run_removes (bounded process) with ⟨left, _, total⟩
  change _ ≤ 0 + _ at total
  omega

/-! ## The creation of a set -/

/-- What `sem_create` guarantees in a state. It goes back only when a set was removed. -/
structure Creates (rounds : Nat) (processes : Processes Process) : Prop where
  exits : ∀ process key initval failure,
    processes.state.calling process = some (.create key initval) →
    Next processes process (.exit failure) → failure = ⟨"can SETVAL[0]", some .ERANGE⟩
  returns : ∀ process key initval id,
    Next processes process (.returns (.create key initval) (some id)) →
    processes.state.sets id ≠ none ∧ processes.state.settings id 0 = 1 ∧
      processes.state.settings id 1 = 1
  goesBack : ∀ process, Next processes process .outOfRounds → rounds ≤ processes.state.removals
  goesOn : ∀ process key initval, processes.state.calling process = some (.create key initval) →
    ¬ Next processes process .ended → ¬ Next processes process .outOfRounds →
    ∃ other, CanStep processes other

/-- `sem_create` returns a set that has been initialized once. Every run ends, and when
`sem_create` may go back more often than the processes close sets, it does not get to its
bound. -/
theorem creates_return (careful : ∀ process, (clients process).Careful fun _ => 0)
    (reached : Pool.Reachable (StepUnder fun command state => Few command state ∧ Unslept command state)
      (start rounds clients) processes) :
    Creates rounds processes ∧
      (∀ run : Nat → Processes Process, run 0 = processes →
        ∃ time, ¬ Pool.Step Step (run time) (run (time + 1))) ∧
      ∀ closings : Process → Nat,
        (∀ process, (clients process).AtMost Call.closes (closings process)) →
        ∑ process, closings process < rounds → ∀ process, ¬ Next processes process .outOfRounds := by
  have reachedSafe := @safe_of_reached _ _ _ False True _ _ _ _ (fun _ _ guard => guard.1)
    (fun _ _ _ => False.elim) (fun _ _ guard _ => guard.2) careful reached
  rcases reachedSafe with ⟨ghost, valid, safe⟩
  have goesBack (process : Process) (out : Next processes process .outOfRounds) :
      rounds ≤ processes.state.removals := by
    have isPoint : (ghost process).point = .trying rounds := permitted_of_next safe out
    have placed := valid.placed process
    rw [Placed, isPoint] at placed
    exact placed
  refine ⟨⟨?_, ?_, goesBack, ?_⟩, fun run _ => Pool.no_infinite_run run, ?_⟩
  · intro process key initval failure calling exits
    have permitted := permitted_of_next safe exits
    exact permitted trivial ⟨key, initval, (valid.calling process).symm.trans calling⟩
  · intro process key initval id returns
    have isPoint : (ghost process).point = .created id := permitted_of_next safe returns
    have placed := valid.placed process
    rw [Placed, isPoint] at placed
    exact placed
  · intro process key initval calling alive within
    exact progress valid safe calling trivial alive within
  · intro closings bounded enough process out
    have least := goesBack process out
    have most := removals_le bounded reached
    omega

def creators : Bool → Client := fun _ => .uses (.create 5 1)

theorem creators_careful (process : Bool) : (creators process).Careful fun _ => 0 := by
  have opens : ∀ id, Call.create 5 1 ≠ .close id := nofun
  exact uses_careful opens _

/-- A set is removed between the `semget` and the lock of a `sem_create`. -/
theorem creates_return_again : ∃ processes : Processes Bool,
    Next processes false (.returns (.create 5 1) (some 1)) ∧ processes.state.removals = 1 ∧
      processes.state.settings 1 1 = 1 := by
  let turns := List.replicate 11 true ++ List.replicate 2 false ++ [true] ++ List.replicate 7 false
  have ran : ∃ processes, turns.foldlM (fun pool process => pool.turn (performUnder
        fun command state => Few command state ∧ Unslept command state) process)
        (start 2 creators) = some processes ∧
      Next processes false (.returns (.create 5 1) (some 1)) ∧ processes.state.removals = 1 :=
    ⟨_, rfl, ⟨_, rfl⟩, rfl⟩
  rcases ran with ⟨processes, ran, returns, once⟩
  have creates := (creates_return creators_careful (reachable_of_turns ran)).1
  exact ⟨processes, returns, once, (creates.returns false 5 1 1 returns).2.2⟩

/-- A `sem_create` that sleeps when its set is removed makes its process exit. -/
theorem creates_fail : ¬ ∀ (rounds : Nat) (clients : Bool → Client),
    (∀ process, (clients process).Careful fun _ => 0) → ∀ processes : Processes Bool,
    Pool.Reachable (StepUnder Few) (start rounds clients) processes →
    ∀ process key initval failure, processes.state.calling process = some (.create key initval) →
    Next processes process (.exit failure) →
    failure.errno ≠ some .EINVAL ∧ failure.errno ≠ some .EIDRM := by
  intro holds
  let turns := List.replicate 10 true ++ List.replicate 3 false ++ List.replicate 2 true ++ [false]
  have ran : ∃ processes, turns.foldlM (fun pool process => pool.turn (performUnder Few) process)
        (start 1 creators) = some processes ∧
      processes.state.calling false = some (.create 5 1) ∧
      Next processes false (.exit ⟨"can't lock", some .EIDRM⟩) :=
    ⟨_, rfl, rfl, _, rfl⟩
  rcases ran with ⟨processes, ran, calling, exits⟩
  have fails := holds 1 creators creators_careful processes (reachable_of_turns ran) false 5 1 _
    calling exits
  exact fails.2 rfl

end Apue.Semaphore
