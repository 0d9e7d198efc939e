import Apue.Foundation.Endings
import Apue.Foundation.Surroundings
import Apue.Semaphore.Calls

/-! # Processes that create, open and close semaphores

What the calls of the library guarantee to their callers, and when they do not.
-/

namespace Apue.Semaphore

open Apue.Foundation

section Functions

variable {Process : Type} [DecidableEq Process] [Fintype Process] {timely unslept : Prop}
  {rounds : Nat} {process : Process} {known : Known} {Result : Type}
  {post : Result → Known → Prop} {id : Nat} {references : Nat → Nat}

theorem safe_ended {Before : Type} {rest : Before → Code Result} (lock : known.point.lock = none) :
    (semLogic Process timely unslept rounds).Safe process post (ended >>= rest) known :=
  ⟨lock, fun _ _ _ _ _ _ stepped => stepped.1.elim⟩

theorem safe_err_sys {Before : Type} {rest : Before → Code Result} {message : String} {errno : Errno}
    (permitted : known.Permitted unslept rounds (.exit ⟨message, some errno⟩))
    (notHalf : ∀ id, known.point ≠ .half id) :
    (semLogic Process timely unslept rounds).Safe process post
      (err_sys message errno >>= rest) known := by
  rw [err_sys, Program.bind_assoc]
  exact safe_exit permitted notHalf (safe_ended rfl)

theorem safe_ends {message : String} {errno : Errno}
    (permitted : known.Permitted unslept rounds (.exit ⟨message, some errno⟩))
    (notHalf : ∀ id, known.point ≠ .half id) :
    (semLogic Process timely unslept rounds).Safe process post (err_sys message errno) known := by
  rw [← bind_pure (err_sys message errno)]
  exact safe_err_sys permitted notHalf

/-- A process that is not in `sem_create` may end. -/
theorem permitted_exit {failure : Failure} (other : ¬ known.Creating) :
    known.Permitted unslept rounds (.exit failure) :=
  fun _ creating => absurd creating other

/-- How `sem_create` ends. -/
def Created (references : Nat → Nat) (call : Call) (result : Option Nat) (there : Known) : Prop :=
  (result = none ∧ ∃ round, there = ⟨.trying round, references, some call⟩) ∨
    ∃ id, result = some id ∧ there = ⟨.created id, references, some call⟩

section Create

variable {key initval : Int}

theorem safe_ready :
    (semLogic Process timely unslept rounds).Safe process
      (Created references (.create key initval))
      (do
        orExit "can't end create" (← semop id op_endcreate)
        return some id)
      ⟨.ready id, references, some (.create key initval)⟩ := by
  refine safe_endcreate rfl ?_
  exact Or.inr ⟨id, rfl, rfl⟩

theorem safe_locked :
    (semLogic Process timely unslept rounds).Safe process
      (Created references (.create key initval))
      (do
        let semval ← orExit "can't GETVAL" (← Program.perform (Command.getval id 1))
        initialize_ id initval semval
        orExit "can't end create" (← semop id op_endcreate)
        return some id)
      ⟨.locked id, references, some (.create key initval)⟩ := by
  refine safe_getval_create rfl ?_ ?_
  · change LocalLogic.Safe _ _ _ (initialize_ id initval 0 >>= _) _
    rw [initialize_, if_pos rfl, Program.bind_assoc]
    refine safe_setval_value rfl ?_ ?_
    · change LocalLogic.Safe _ _ _ ((err_sys "can SETVAL[0]" .ERANGE >>= _) >>= _) _
      rw [Program.bind_assoc]
      exact safe_err_sys (fun _ _ => rfl) nofun
    · refine safe_setval_counter rfl ?_
      exact safe_ready
  · intro semval nonzero
    change LocalLogic.Safe _ _ _ (initialize_ id initval semval >>= _) _
    rw [initialize_, if_neg nonzero]
    exact safe_ready

theorem again_safe {left round : Nat} (bound : round + left = rounds) :
    (semLogic Process timely unslept rounds).Safe process
      (Created references (.create key initval)) (again key initval left)
      ⟨.trying round, references, some (.create key initval)⟩ := by
  induction left generalizing round with
  | zero => exact ⟨congrArg Point.trying bound, fun _ _ _ _ _ _ stepped => stepped.1.elim⟩
  | succ left hypothesis =>
      rw [again]
      refine safe_semget_create rfl ?_ ?_
      · exact Or.inl ⟨rfl, round, rfl⟩
      · intro id
        refine safe_lock rfl rfl ?_ ?_ ?_
        · exact hypothesis (by omega)
        · intro slept
          exact safe_ends (fun prompt => absurd prompt slept) nofun
        · exact safe_locked

theorem sem_create_safe :
    (semLogic Process timely unslept rounds).Safe process
      (Created references (.create key initval)) (sem_create rounds key initval)
      ⟨.trying 0, references, some (.create key initval)⟩ := by
  rw [sem_create]
  split
  · exact Or.inl ⟨rfl, 0, rfl⟩
  · split
    · exact Or.inl ⟨rfl, 0, rfl⟩
    · exact again_safe (Nat.zero_add rounds)

end Create

/-- How `sem_open` ends. -/
def Opened (references : Nat → Nat) (call : Call) (result : Option Nat) (there : Known) : Prop :=
  (result = none ∧ there = ⟨.resting, references, some call⟩) ∨
    ∃ id, result = some id ∧ there = ⟨.opened id, references, some call⟩

theorem sem_open_safe {key : Int} :
    (semLogic Process timely unslept rounds).Safe process (Opened references (.open_ key))
      (sem_open key) ⟨.resting, references, some (.open_ key)⟩ := by
  have notCreating : ¬ Known.Creating ⟨.resting, references, some (.open_ key)⟩ := nofun
  rw [sem_open]
  split
  · exact Or.inl ⟨rfl, rfl⟩
  · split
    · exact Or.inl ⟨rfl, rfl⟩
    · refine safe_semget_open rfl ?_
      intro id
      cases id with
      | none => exact Or.inl ⟨rfl, rfl⟩
      | some id =>
          refine safe_open rfl ⟨rfl, trivial⟩ ?_ ?_
          · intro errno
            exact safe_err_sys (permitted_exit notCreating) nofun
          · exact Or.inr ⟨id, rfl, rfl⟩

theorem sem_op_safe {value : Int} {call : Call}
    (isOther : match call with | .create _ _ | .close _ => False | _ => True) :
    (semLogic Process timely unslept rounds).Safe process
      (fun _ there => there = ⟨.resting, references, some call⟩) (sem_op id value)
      ⟨.resting, references, some call⟩ := by
  have notCreating : ¬ Known.Creating ⟨.resting, references, some call⟩ := by
    rintro ⟨key, initval, equal⟩
    cases equal
    exact isOther
  have permitted : Known.Permitted unslept rounds ⟨.resting, references, some call⟩
      (.awake id (op_op value)) := by
    refine ⟨rfl, ?_⟩
    cases call with
    | create | close => exact isOther.elim
    | open_ | wait | signal => trivial
  refine safe_op rfl permitted ?_ ?_
  · intro errno
    exact safe_ends (permitted_exit notCreating) nofun
  · exact rfl

theorem sem_close_safe :
    (semLogic Process timely unslept rounds).Safe process
      (fun _ there => there = ⟨.resting, references, some (.close id)⟩) (sem_close id)
      ⟨.closing id, references, some (.close id)⟩ := by
  have notCreating : ¬ Known.Creating ⟨.closing id, references, some (.close id)⟩ := nofun
  refine safe_close rfl ⟨rfl, rfl⟩ ?_ ?_
  · intro errno
    exact safe_err_sys (permitted_exit notCreating) nofun
  · refine safe_getval_close rfl rfl ?_ ?_
    · change LocalLogic.Safe _ _ _ (sem_rm id) _
      refine safe_rmid rfl ?_
      exact rfl
    · intro semval below
      change LocalLogic.Safe _ _ _ (if semval > BIGCOUNT then _ else _) _
      rw [if_neg (by omega), if_neg (by omega)]
      refine safe_unlock rfl ?_
      exact rfl

/-- A process between two calls, or behind the last. -/
def Idle (_ : Unit) (known : Known) : Prop := known.point = .resting ∧ known.calling = none

theorem client_safe {client : Client} (careful : client.Careful references) :
    (semLogic Process timely unslept rounds).Safe process Idle (client.run rounds)
      ⟨.resting, references, none⟩ := by
  induction client generalizing references with
  | done _ => exact ⟨rfl, rfl⟩
  | call call next hypothesis =>
      rcases careful with ⟨may, later⟩
      cases call with
      | create key initval =>
          refine safe_calls (.trying 0) rfl rfl nofun ?_
          apply LocalLogic.Safe.bind
          apply sem_create_safe.mono
          rintro result there (⟨rfl, round, rfl⟩ | ⟨id, rfl, rfl⟩)
          · exact safe_returns rfl rfl rfl (hypothesis none (later none))
          · exact safe_returns rfl rfl rfl (hypothesis (some id) (later (some id)))
      | open_ key =>
          refine safe_calls .resting rfl rfl nofun ?_
          apply LocalLogic.Safe.bind
          apply sem_open_safe.mono
          rintro result there (⟨rfl, rfl⟩ | ⟨id, rfl, rfl⟩)
          · exact safe_returns rfl rfl rfl (hypothesis none (later none))
          · exact safe_returns rfl rfl rfl (hypothesis (some id) (later (some id)))
      | wait id =>
          refine safe_calls .resting rfl rfl nofun ?_
          apply LocalLogic.Safe.bind
          apply LocalLogic.Safe.bind
          apply (sem_op_safe trivial).mono
          rintro _ there rfl
          exact safe_returns rfl rfl rfl (hypothesis none (later none))
      | signal id =>
          refine safe_calls .resting rfl rfl nofun ?_
          apply LocalLogic.Safe.bind
          apply LocalLogic.Safe.bind
          apply (sem_op_safe trivial).mono
          rintro _ there rfl
          exact safe_returns rfl rfl rfl (hypothesis none (later none))
      | close id =>
          refine safe_calls (.closing id) rfl rfl may ?_
          · apply LocalLogic.Safe.bind
            apply LocalLogic.Safe.bind
            apply sem_close_safe.mono
            rintro _ there rfl
            exact safe_returns rfl rfl rfl (hypothesis none (later none))

end Functions

/-! ## Every reachable state -/

section Runs

variable {Process : Type} [DecidableEq Process]

def CanStep (processes : Processes Process) (process : Process) : Prop :=
  ∃ command response after, Next processes process command ∧
    Step process command processes.state response after

theorem canStep_of_next {processes : Processes Process} {process : Process} {command : Command}
    (next : Next processes process command)
    (answered : ¬ command.Waits) :
    CanStep processes process := by
  rcases kernel_answers process (processes.state.told process none) answered with ⟨outcome, isOutcome⟩
  exact ⟨command, outcome.1, outcome.2, next, kernel_steps isOutcome⟩

/-- What `sem_create` and `sem_close` may wait for is the lock. -/
theorem locked_of_blocks {values adjust : Member → Int} {ops : List SemBuf}
    (waits : ops = op_lock ∨ ops = op_close) (counter : 0 ≤ values 1)
    (blocked : attempt SEMVMX ops values adjust = .blocks) : values 2 ≠ 0 := by
  intro zero
  have same : Function.update values 2 (values 2 + 0) = values := by
    rw [Int.add_zero, Function.update_eq_self]
  rcases waits with rfl | rfl
  · rcases attempt_cons_blocks blocked with ⟨_, occupied⟩ | negative | ⟨adjust', rest⟩
    · exact occupied zero
    · dsimp only at negative
      omega
    · apply attempt_open _ _ rest
      · decide
      · dsimp only
        rw [same]
        simp [zero]
  · rcases attempt_cons_blocks blocked with ⟨_, occupied⟩ | negative | ⟨adjust', rest⟩
    · exact occupied zero
    · dsimp only at negative
      omega
    · apply attempt_open _ _ rest
      · decide
      · dsimp only
        rw [same]
        simp [zero, counter]

variable [Fintype Process] {timely unslept : Prop} {rounds : Nat}
  {ghost : Process → Known} {processes : Processes Process} {process : Process}

section Safe

variable (valid : Valid timely unslept ghost processes.state)
  (safe : ∀ process, (semLogic Process timely unslept rounds).Safe process Idle
    (processes.programs process) (ghost process))

include safe

theorem permitted_of_next {command : Command} (next : Next processes process command) :
    (ghost process).Permitted unslept rounds command := by
  rcases next with ⟨rest, isProgram⟩
  have mine := safe process
  rw [isProgram] at mine
  exact mine.1

/-- A process with a lock can always go on. -/
theorem canStep_of_lock {id : Nat} (held : (ghost process).point.lock = some id) :
    CanStep processes process := by
  have mine := safe process
  cases isProgram : processes.programs process with
  | done value =>
      rw [isProgram] at mine
      rw [mine.1] at held
      cases held
  | call command next =>
      apply canStep_of_next ⟨next, isProgram⟩
      have permitted := permitted_of_next safe ⟨next, isProgram⟩
      intro waits
      cases command with
      | awake => exact absurd (permitted.1.symm.trans held) nofun
      | ended =>
          have noLock : (ghost process).point.lock = none := permitted
          exact absurd (noLock.symm.trans held) nofun
      | outOfRounds =>
          have isPoint : (ghost process).point = .trying rounds := permitted
          rw [isPoint] at held
          cases held
      | semget | semop | getval | setval | rmid | exit | calls | returns => exact waits

include valid

/-- A process in `sem_create` or `sem_close` can go on, or waits for one that can. -/
theorem progress {call : Call}
    (calling : processes.state.calling process = some call)
    (isCall : match call with | .create _ _ | .close _ => True | _ => False)
    (alive : ¬ Next processes process .ended) (within : ¬ Next processes process .outOfRounds) :
    ∃ other, CanStep processes other := by
  have isCalling := (valid.calling process).symm.trans calling
  cases isProgram : processes.programs process with
  | done value =>
      have mine := safe process
      rw [isProgram] at mine
      rw [mine.2] at isCalling
      cases isCalling
  | call command next =>
      have comes : Next processes process command := ⟨next, isProgram⟩
      have permitted := permitted_of_next safe comes
      cases command with
      | awake id ops =>
          have waits : ops = op_lock ∨ ops = op_close := by
            have which := permitted.2
            rw [isCalling] at which
            cases call with
            | create => exact Or.inl which
            | close => exact Or.inr which
            | open_ | wait | signal => exact isCall.elim
          cases isOutcome : kernel process (.awake id ops) (processes.state.told process none) with
          | some outcome => exact ⟨process, _, outcome.1, outcome.2, comes, kernel_steps isOutcome⟩
          | none =>
              rw [kernel, State.told_sets, State.told_semadj] at isOutcome
              cases isSet : processes.state.sets id with
              | none =>
                  rw [isSet] at isOutcome
                  cases isOutcome
              | some values =>
                  rw [isSet] at isOutcome
                  dsimp only at isOutcome
                  have counted := valid.counted id values isSet
                  have counter : 0 ≤ values 1 := by
                    rcases counted.value with
                      ⟨_, zero⟩ | ⟨_, _, positive, _⟩ <;> omega
                  have blocked : attempt SEMVMX ops values (processes.state.semadj process id) =
                      .blocks := by
                    cases tried : attempt SEMVMX ops values (processes.state.semadj process id) with
                    | blocks => rfl
                    | done | outOfRange =>
                        rw [tried] at isOutcome
                        cases isOutcome
                  rcases counted.holder (locked_of_blocks waits counter blocked) with ⟨holder, held⟩
                  exact ⟨holder, canStep_of_lock safe held⟩
      | ended => exact absurd comes alive
      | outOfRounds => exact absurd comes within
      | semget | semop | getval | setval | rmid | exit | calls | returns =>
          exact ⟨process, canStep_of_next comes id⟩

end Safe

end Runs

end Apue.Semaphore
