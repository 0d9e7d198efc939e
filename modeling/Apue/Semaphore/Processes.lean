import Apue.Foundation.Program
import Apue.Foundation.SemaphoreSets
import Mathlib.Algebra.GroupWithZero.Nat

/-! # Processes that share semaphores

`lib/semaph.c` makes one semaphore out of a set of three: member 0 is the value, member
1 counts the processes that use it, down from `BIGCOUNT`, and member 2 is a lock.
-/

namespace Apue.Semaphore

open Apue.Foundation

def BIGCOUNT : Int := 10000

/-- The greatest value of a member, and of what a process has to give back. -/
def SEMVMX : Int := 32767

def IPC_PRIVATE : Int := 0

inductive Errno
  | EINVAL
  | EIDRM
  | ERANGE
  deriving DecidableEq

abbrev Member : Type := Fin 3

instance neZero_member : NeZero 3 := ⟨by decide⟩

abbrev SemBuf : Type := SemOp Member

def op_lock : List SemBuf := [⟨2, 0, false⟩, ⟨2, 1, true⟩]

def op_endcreate : List SemBuf := [⟨1, -1, true⟩, ⟨2, -1, true⟩]

def op_open : List SemBuf := [⟨1, -1, true⟩]

def op_close : List SemBuf := [⟨2, 0, false⟩, ⟨2, 1, true⟩, ⟨1, 1, true⟩]

def op_unlock : List SemBuf := [⟨2, -1, true⟩]

def op_op (value : Int) : List SemBuf := [⟨0, value, true⟩]

/-- What a process does with semaphores. -/
inductive Call
  | create (key initval : Int)
  | open_ (key : Int)
  | wait (id : Nat)
  | signal (id : Nat)
  | close (id : Nat)
  deriving DecidableEq

/-- The set that a call has opened with its result. -/
def Call.opens : Call → Option Nat → Option Nat
  | .create _ _, result | .open_ _, result => result
  | _, _ => none

/-- How often a process has opened the sets and not closed them, once a call has begun. -/
def giving (references : Nat → Nat) : Call → Nat → Nat
  | .close id => Function.update references id (references id - 1)
  | _ => references

def taking (references : Nat → Nat) : Option Nat → Nat → Nat
  | some id => Function.update references id (references id + 1)
  | none => references

/-- The message of a process that ends with an error. -/
structure Failure where
  message : String
  errno : Option Errno

inductive Command
  | semget (key : Int) (create : Bool)
  | semop (id : Nat) (ops : List SemBuf)
  /-- The end of a `semop` that had to wait. -/
  | awake (id : Nat) (ops : List SemBuf)
  | getval (id : Nat) (num : Member)
  | setval (id : Nat) (num : Member) (val : Int)
  | rmid (id : Nat)
  | exit (failure : Failure)
  /-- Behind `exit`. -/
  | ended
  /-- A loop does not end within its bound. -/
  | outOfRounds
  | calls (call : Call)
  | returns (call : Call) (result : Option Nat)

/-- A `semop` that has to wait is answered by `none`. -/
@[reducible] def Response : Command → Type
  | .semget _ _ => Option Nat
  | .semop _ _ => Option (Except Errno Unit)
  | .awake _ _ | .setval _ _ _ | .rmid _ => Except Errno Unit
  | .getval _ _ => Except Errno Int
  | .ended | .outOfRounds => Empty
  | .exit _ | .calls _ | .returns _ _ => Unit

/-- What the kernel keeps, and below it a history: the calls under way, what the last
step of a process was told by `GETVAL`, how often a process has opened a set and not
closed it, how often the members of a set were set, and how many sets were removed. -/
structure State (Process : Type) where
  ids : Int → Option Nat
  sets : Nat → Option (Member → Int)
  created : Nat
  semadj : Process → Nat → Member → Int
  asleep : Process → Option (Nat × List SemBuf)
  calling : Process → Option Call
  answer : Process → Option Int
  references : Process → Nat → Nat
  settings : Nat → Member → Nat
  removals : Nat

namespace State

variable {Process : Type} [DecidableEq Process] (state : State Process)

def create (key : Int) : State Process :=
  { state with
    ids := Function.update state.ids key (some state.created)
    sets := Function.update state.sets state.created (some fun _ => 0)
    created := state.created + 1
    semadj := fun process => Function.update (state.semadj process) state.created fun _ => 0 }

/-- A list of operations is done. -/
def operated (process : Process) (id : Nat) (values adjust : Member → Int) : State Process :=
  { state with
    sets := Function.update state.sets id (some values)
    semadj := Function.update state.semadj process
      (Function.update (state.semadj process) id adjust) }

def sleep (process : Process) (waiting : Option (Nat × List SemBuf)) : State Process :=
  { state with asleep := Function.update state.asleep process waiting }

def told (process : Process) (answer : Option Int) : State Process :=
  { state with answer := Function.update state.answer process answer }

@[simp] theorem told_ids (process : Process) (answer : Option Int) :
    (state.told process answer).ids = state.ids := rfl

@[simp] theorem told_sets (process : Process) (answer : Option Int) :
    (state.told process answer).sets = state.sets := rfl

@[simp] theorem told_semadj (process : Process) (answer : Option Int) :
    (state.told process answer).semadj = state.semadj := rfl

/-- What the processes have to give back to the member is forgotten. -/
def set (id : Nat) (num : Member) (values : Member → Int) (val : Int) : State Process :=
  { state with
    sets := Function.update state.sets id (some (Function.update values num val))
    semadj := fun process => Function.update (state.semadj process) id
      (Function.update (state.semadj process id) num 0)
    settings := Function.update state.settings id
      (Function.update (state.settings id) num (state.settings id num + 1)) }

def remove (id : Nat) : State Process :=
  { state with
    ids := fun key => if state.ids key = some id then none else state.ids key
    sets := Function.update state.sets id none
    removals := state.removals + 1 }

/-- A process ends, and what it has to give back is given back. -/
def exit (process : Process) : State Process :=
  { state with
    sets := fun id => (state.sets id).map fun values num =>
      givenBack SEMVMX (values num) (state.semadj process id num)
    semadj := Function.update state.semadj process fun _ _ => 0
    references := Function.update state.references process fun _ => 0 }

def calls (process : Process) (call : Call) : State Process :=
  { state with
    calling := Function.update state.calling process (some call)
    references := Function.update state.references process (giving (state.references process) call) }

def returns (process : Process) (call : Call) (result : Option Nat) : State Process :=
  { state with
    calling := Function.update state.calling process none
    references := Function.update state.references process
      (taking (state.references process) (call.opens result)) }

end State

section Steps

variable {Process : Type} [DecidableEq Process]

/-- What a command may do. A set is removed for all its keys and all who wait for it. -/
def KernelStep (process : Process) : (command : Command) → State Process → Response command →
    State Process → Prop
  | .semget key create, before, id, after => id = none ∧ after = before ∨
      match before.ids key with
      | some known => id = some known ∧ after = before
      | none => create = true ∧ id = some before.created ∧ after = before.create key
  | .semop id ops, before, answer, after =>
      match before.sets id with
      | none => answer = some (.error .EINVAL) ∧ after = before
      | some values =>
          match attempt SEMVMX ops values (before.semadj process id) with
          | .done values adjust =>
              answer = some (.ok ()) ∧ after = before.operated process id values adjust
          | .blocks => answer = none ∧ after = before.sleep process (some (id, ops))
          | .outOfRange => answer = some (.error .ERANGE) ∧ after = before
  | .awake id ops, before, answer, after =>
      match before.sets id with
      | none => answer = .error .EIDRM ∧ after = before.sleep process none
      | some values =>
          match attempt SEMVMX ops values (before.semadj process id) with
          | .done values adjust =>
              answer = .ok () ∧ after = (before.operated process id values adjust).sleep process none
          | .blocks => False
          | .outOfRange => answer = .error .ERANGE ∧ after = before.sleep process none
  | .getval id num, before, answer, after =>
      match before.sets id with
      | none => answer = .error .EINVAL ∧ after = before
      | some values => answer = .ok (values num) ∧ after = before.told process (some (values num))
  | .setval id num val, before, answer, after =>
      match before.sets id with
      | none => answer = .error .EINVAL ∧ after = before
      | some values =>
          if val < 0 ∨ SEMVMX < val then answer = .error .ERANGE ∧ after = before
          else answer = .ok () ∧ after = before.set id num values val
  | .rmid id, before, answer, after =>
      match before.sets id with
      | none => answer = .error .EINVAL ∧ after = before
      | some _ => answer = .ok () ∧ after = before.remove id
  | .exit _, before, _, after => after = before.exit process
  | .ended, _, _, _ | .outOfRounds, _, _, _ => False
  | .calls call, before, _, after => after = before.calls process call
  | .returns call result, before, _, after => after = before.returns process call result

/-- An answer to a command, when `semget` succeeds; `none` when there is no answer yet. -/
def kernel (process : Process) : (command : Command) → State Process →
    Option (Response command × State Process)
  | .semget key create, before =>
      match before.ids key with
      | some known => some (some known, before)
      | none => some (if create then (some before.created, before.create key) else (none, before))
  | .semop id ops, before =>
      match before.sets id with
      | none => some (some (.error .EINVAL), before)
      | some values =>
          match attempt SEMVMX ops values (before.semadj process id) with
          | .done values adjust => some (some (.ok ()), before.operated process id values adjust)
          | .blocks => some (none, before.sleep process (some (id, ops)))
          | .outOfRange => some (some (.error .ERANGE), before)
  | .awake id ops, before =>
      match before.sets id with
      | none => some (.error .EIDRM, before.sleep process none)
      | some values =>
          match attempt SEMVMX ops values (before.semadj process id) with
          | .done values adjust =>
              some (.ok (), (before.operated process id values adjust).sleep process none)
          | .blocks => none
          | .outOfRange => some (.error .ERANGE, before.sleep process none)
  | .getval id num, before =>
      match before.sets id with
      | none => some (.error .EINVAL, before)
      | some values => some (.ok (values num), before.told process (some (values num)))
  | .setval id num val, before =>
      match before.sets id with
      | none => some (.error .EINVAL, before)
      | some values => some
          (if val < 0 ∨ SEMVMX < val then (.error .ERANGE, before)
          else (.ok (), before.set id num values val))
  | .rmid id, before =>
      match before.sets id with
      | none => some (.error .EINVAL, before)
      | some _ => some (.ok (), before.remove id)
  | .exit _, before => some ((), before.exit process)
  | .ended, _ | .outOfRounds, _ => none
  | .calls call, before => some ((), before.calls process call)
  | .returns call result, before => some ((), before.returns process call result)

theorem kernel_steps {process : Process} {command : Command} {before after : State Process}
    {response : Response command} (answered : kernel process command before = some (response, after)) :
    KernelStep process command before response after := by
  cases command with
  | semget key create =>
      rw [kernel] at answered
      cases named : before.ids key with
      | some known =>
          rw [named] at answered
          cases answered
          right
          rw [named]
          exact ⟨rfl, rfl⟩
      | none =>
          rw [named] at answered
          cases create with
          | true =>
              cases answered
              right
              rw [named]
              exact ⟨rfl, rfl, rfl⟩
          | false =>
              cases answered
              exact Or.inl ⟨rfl, rfl⟩
  | semop id ops =>
      rw [kernel] at answered
      rw [KernelStep]
      cases isSet : before.sets id with
      | none =>
          rw [isSet] at answered
          cases answered
          exact ⟨rfl, rfl⟩
      | some values =>
          rw [isSet] at answered
          dsimp only at answered ⊢
          cases tried : attempt SEMVMX ops values (before.semadj process id) with
          | done | blocks | outOfRange =>
              rw [tried] at answered
              cases answered
              exact ⟨rfl, rfl⟩
  | awake id ops =>
      rw [kernel] at answered
      rw [KernelStep]
      cases isSet : before.sets id with
      | none =>
          rw [isSet] at answered
          cases answered
          exact ⟨rfl, rfl⟩
      | some values =>
          rw [isSet] at answered
          dsimp only at answered ⊢
          cases tried : attempt SEMVMX ops values (before.semadj process id) with
          | done | outOfRange =>
              rw [tried] at answered
              cases answered
              exact ⟨rfl, rfl⟩
          | blocks =>
              rw [tried] at answered
              cases answered
  | getval id num | rmid id =>
      rw [kernel] at answered
      rw [KernelStep]
      cases isSet : before.sets id with
      | none | some values =>
          rw [isSet] at answered
          cases answered
          exact ⟨rfl, rfl⟩
  | setval id num val =>
      rw [kernel] at answered
      rw [KernelStep]
      cases isSet : before.sets id with
      | none =>
          rw [isSet] at answered
          cases answered
          exact ⟨rfl, rfl⟩
      | some values =>
          rw [isSet] at answered
          dsimp only at answered ⊢
          by_cases outside : val < 0 ∨ SEMVMX < val
          · rw [if_pos outside] at answered ⊢
            cases answered
            exact ⟨rfl, rfl⟩
          · rw [if_neg outside] at answered ⊢
            cases answered
            exact ⟨rfl, rfl⟩
  | exit | calls | returns =>
      cases answered
      exact rfl
  | ended | outOfRounds => cases answered

/-- There may be no answer. -/
def Command.Waits : Command → Prop
  | .awake _ _ | .ended | .outOfRounds => True
  | _ => False

theorem kernel_answers (process : Process) {command : Command} (before : State Process)
    (answered : ¬ command.Waits) :
    ∃ outcome, kernel process command before = some outcome := by
  cases command with
  | semget key create =>
      rw [kernel]
      cases before.ids key with
      | none | some => exact ⟨_, rfl⟩
  | semop id ops =>
      rw [kernel]
      cases before.sets id with
      | none => exact ⟨_, rfl⟩
      | some values =>
          dsimp only
          cases attempt SEMVMX ops values (before.semadj process id) with
          | done | blocks | outOfRange => exact ⟨_, rfl⟩
  | getval id num | setval id num val | rmid id =>
      rw [kernel]
      cases before.sets id with
      | none | some => exact ⟨_, rfl⟩
  | exit | calls | returns => exact ⟨_, rfl⟩
  | awake | ended | outOfRounds => exact absurd trivial answered

/-- Before its next step a process forgets what it was told by `GETVAL`. -/
def Step (process : Process) (command : Command) (before : State Process)
    (response : Response command) (after : State Process) : Prop :=
  KernelStep process command (before.told process none) response after

end Steps

/-! ## The functions -/

abbrev Code : Type → Type := Program Command Response

def ended {Result : Type} : Code Result := .call .ended nofun

def err_sys {Result : Type} (message : String) (errno : Errno) : Code Result := do
  Program.perform (Command.exit ⟨message, some errno⟩)
  ended

def err_dump {Result : Type} (message : String) : Code Result := do
  Program.perform (Command.exit ⟨message, none⟩)
  ended

def semop (id : Nat) (ops : List SemBuf) : Code (Except Errno Unit) := do
  match ← Program.perform (Command.semop id ops) with
  | some answer => return answer
  | none => Program.perform (Command.awake id ops)

/-- The value of a call that must not fail. -/
def orExit {Result : Type} (message : String) : Except Errno Result → Code Result
  | .ok value => return value
  | .error errno => err_sys message errno

/-- The value and the counter, if nobody has set them. -/
def initialize_ (id : Nat) (initval semval : Int) : Code Unit :=
  if semval = 0 then do
    orExit "can SETVAL[0]" (← Program.perform (Command.setval id 0 initval))
    orExit "can SETVAL[1]" (← Program.perform (Command.setval id 1 BIGCOUNT))
  else return ()

/-- `sem_create` from its label, with a bound on how often it goes back. -/
def again (key initval : Int) : Nat → Code (Option Nat)
  | 0 => .call .outOfRounds nofun
  | rounds + 1 => do
      match ← Program.perform (Command.semget key true) with
      | none => return none
      | some id =>
          match ← semop id op_lock with
          | .error .EINVAL => again key initval rounds
          | .error errno => err_sys "can't lock" errno
          | .ok () =>
              let semval ← orExit "can't GETVAL" (← Program.perform (Command.getval id 1))
              initialize_ id initval semval
              orExit "can't end create" (← semop id op_endcreate)
              return some id

/-- `none` stands for -1. -/
def sem_create (rounds : Nat) (key initval : Int) : Code (Option Nat) :=
  if key = IPC_PRIVATE then return none
  else if key = -1 then return none
  else again key initval rounds

def sem_open (key : Int) : Code (Option Nat) :=
  if key = IPC_PRIVATE then return none
  else if key = -1 then return none
  else do
    match ← Program.perform (Command.semget key false) with
    | none => return none
    | some id =>
        orExit "can't open" (← semop id op_open)
        return some id

def sem_rm (id : Nat) : Code Unit := do
  orExit "can't IPC_RMID" (← Program.perform (Command.rmid id))

def sem_close (id : Nat) : Code Unit := do
  orExit "can't semop" (← semop id op_close)
  let semval ← orExit "can't GETVAL" (← Program.perform (Command.getval id 1))
  if semval > BIGCOUNT then err_dump "sem[1] > BIGCOUNT"
  else if semval = BIGCOUNT then sem_rm id
  else do orExit "can't unlock" (← semop id op_unlock)

/-- Not called with 0 below. -/
def sem_op (id : Nat) (value : Int) : Code Unit := do
  orExit "sem_op error" (← semop id (op_op value))

def sem_wait (id : Nat) : Code Unit := sem_op id (-1)

def sem_signal (id : Nat) : Code Unit := sem_op id 1

/-! ## Processes -/

def code (rounds : Nat) : Call → Code (Option Nat)
  | .create key initval => sem_create rounds key initval
  | .open_ key => sem_open key
  | .wait id => (fun _ => none) <$> sem_wait id
  | .signal id => (fun _ => none) <$> sem_signal id
  | .close id => (fun _ => none) <$> sem_close id

abbrev Client : Type := Program Call (fun _ => Option Nat) Unit

/-- A process closes only what it has open. -/
def Client.Careful : Client → (Nat → Nat) → Prop
  | .done _, _ => True
  | .call call next, owned => (∀ id, call = .close id → 0 < owned id) ∧
      ∀ result, Client.Careful (next result) (taking (giving owned call) (call.opens result))

def Client.run (rounds : Nat) : Client → Code Unit
  | .done _ => return ()
  | .call call next => do
      Program.perform (Command.calls call)
      let result ← code rounds call
      Program.perform (Command.returns call result)
      Client.run rounds (next result)

abbrev Processes (Process : Type) : Type := Pool Process Command Response (State Process) Unit

def start {Process : Type} (rounds : Nat) (clients : Process → Client) : Processes Process where
  programs := fun process => (clients process).run rounds
  state :=
    { ids := fun _ => none
      sets := fun _ => none
      created := 0
      semadj := fun _ _ _ => 0
      asleep := fun _ => none
      calling := fun _ => none
      answer := fun _ => none
      references := fun _ _ => 0
      settings := fun _ _ => 0
      removals := 0 }

/-- What a process does next. -/
def Next {Process : Type} (processes : Processes Process) (process : Process) (command : Command) :
    Prop :=
  ∃ next, processes.programs process = .call command next

end Apue.Semaphore
