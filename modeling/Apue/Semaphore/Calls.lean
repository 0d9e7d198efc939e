import Apue.Semaphore.Counting

/-! # The calls of the semaphore library

What `lib/semaph.c` does between its system calls, whatever other processes do.
-/

namespace Apue.Semaphore

open Apue.Foundation

variable {Process : Type}

/-- No set comes to have `BIGCOUNT` users. -/
def Few [Fintype Process] (command : Command) (state : State Process) : Prop :=
  match command with
  | .semop id ops | .awake id ops => state.sets id ≠ none →
      owed (fun process => state.semadj process id) 1 - added ops 1 < BIGCOUNT
  | _ => True

/-- No `sem_open` takes effect on a set in which a `sem_close` has found that nobody has
it open. -/
def Timely (command : Command) (state : State Process) : Prop :=
  match command with
  | .semop id ops | .awake id ops => ops = op_open →
      ∀ process, state.calling process = some (.close id) → state.answer process ≠ some BIGCOUNT
  | _ => True

/-- No set is removed while a `sem_create` sleeps until its lock is free. -/
def Unslept (command : Command) (state : State Process) : Prop :=
  match command with
  | .rmid id => ∀ process, state.asleep process ≠ some (id, op_lock)
  | _ => True

instance [Fintype Process] (command : Command) (state : State Process) :
    Decidable (Few command state) :=
  match command with
  | .semop _ _ | .awake _ _ => inferInstanceAs (Decidable (_ → _))
  | .semget _ _ | .getval _ _ | .setval _ _ _ | .rmid _ | .exit _ | .ended | .outOfRounds |
    .calls _ | .returns _ _ => .isTrue trivial

instance [Fintype Process] (command : Command) (state : State Process) :
    Decidable (Timely command state) :=
  match command with
  | .semop _ _ | .awake _ _ => inferInstanceAs (Decidable (_ → _))
  | .semget _ _ | .getval _ _ | .setval _ _ _ | .rmid _ | .exit _ | .ended | .outOfRounds |
    .calls _ | .returns _ _ => .isTrue trivial

instance [Fintype Process] (command : Command) (state : State Process) :
    Decidable (Unslept command state) :=
  match command with
  | .rmid _ => inferInstanceAs (Decidable (∀ _, _))
  | .semget _ _ | .semop _ _ | .awake _ _ | .getval _ _ | .setval _ _ _ | .exit _ | .ended |
    .outOfRounds | .calls _ | .returns _ _ => .isTrue trivial

def Known.Creating (known : Known) : Prop := ∃ key initval, known.calling = some (.create key initval)

/-- The commands that a process may come to, when `sem_create` goes back at most `rounds`
times. -/
def Known.Permitted (unslept : Prop) (rounds : Nat) (known : Known) : Command → Prop
  | .awake _ ops => known.point.lock = none ∧
      match known.calling with
      | some (.create _ _) => ops = op_lock
      | some (.close _) => ops = op_close
      | _ => True
  | .rmid id => known.point = .removing id
  | .exit failure => unslept → known.Creating → failure = ⟨"can SETVAL[0]", some .ERANGE⟩
  | .ended => known.point.lock = none
  | .outOfRounds => known.point = .trying rounds
  | .calls _ => known.point = .resting
  | .returns call result => match call, result with
      | .create _ _, some id => known.point = .created id
      | _, _ => known.point.lock = none
  | _ => True

variable [DecidableEq Process] [Fintype Process]

variable (Process) in
abbrev semLogic (timely unslept : Prop) (rounds : Nat) :
    LocalLogic Process Command Response (State Process) (Process → Known) Known where
  step := fun process command state response after => Step process command state response after ∧
    Few command state ∧ (timely → Timely command state) ∧ (unslept → Unslept command state)
  valid := Valid timely unslept
  localOf := fun process ghost => ghost process
  allowed := fun _ command known => known.Permitted unslept rounds command

section Steps

variable {timely unslept : Prop} {rounds : Nat} {ghost : Process → Known} {state : State Process}
  {process : Process} {known : Known} {Result : Type} {post : Result → Known → Prop} {id : Nat}
  {ops : List SemBuf}

theorem safe_moves {command : Command} {rest : Response command → Code Result}
    (permitted : known.Permitted unslept rounds command)
    (moved : ∀ ghost state, Valid timely unslept ghost state → ghost process = known →
      ∀ response after, Step process command state response after → Few command state →
        (timely → Timely command state) → (unslept → Unslept command state) →
        ∃ there, Valid timely unslept (Function.update ghost process there) after ∧
          (semLogic Process timely unslept rounds).Safe process post (rest response) there) :
    (semLogic Process timely unslept rounds).Safe process post
      (Program.perform command >>= rest) known := by
  apply LocalLogic.Safe.perform permitted
  intro ghost state valid same response after stepped
  rcases moved ghost state valid same response after stepped.1 stepped.2.1 stepped.2.2.1
      stepped.2.2.2 with ⟨there, valid', safe⟩
  refine ⟨_, valid', fun other different => Function.update_of_ne different _ _, ?_⟩
  change LocalLogic.Safe _ _ _ _ (Function.update ghost process there process)
  rw [Function.update_self]
  exact safe

/-- A step that changes no set. -/
structure Still (process : Process) (state after : State Process) : Prop where
  ids : after.ids = state.ids
  sets : after.sets = state.sets
  created : after.created = state.created
  semadj : after.semadj = state.semadj
  asleep : ∀ other, other ≠ process → after.asleep other = state.asleep other
  calling : after.calling = state.calling
  answer : ∀ other, other ≠ process → after.answer other = state.answer other
  references : after.references = state.references
  settings : after.settings = state.settings
  removals : after.removals = state.removals

omit [Fintype Process] in
theorem still_told (answer : Option Int) :
    Still process state ((state.told process none).told process answer) where
  ids := rfl
  sets := rfl
  created := rfl
  semadj := rfl
  asleep := fun _ _ => rfl
  calling := rfl
  answer := by
    intro other different
    exact (Function.update_of_ne different _ _).trans (Function.update_of_ne different _ _)
  references := rfl
  settings := rfl
  removals := rfl

omit [Fintype Process] in
theorem still_sleep (waiting : Option (Nat × List SemBuf)) :
    Still process state ((state.told process none).sleep process waiting) where
  ids := rfl
  sets := rfl
  created := rfl
  semadj := rfl
  asleep := fun _ different => Function.update_of_ne different _ _
  calling := rfl
  answer := fun _ different => Function.update_of_ne different _ _
  references := rfl
  settings := rfl
  removals := rfl

omit [Fintype Process] in
theorem still : Still process state (state.told process none) where
  ids := rfl
  sets := rfl
  created := rfl
  semadj := rfl
  asleep := fun _ _ => rfl
  calling := rfl
  answer := fun _ different => Function.update_of_ne different _ _
  references := rfl
  settings := rfl
  removals := rfl

theorem Valid.point (valid : Valid timely unslept ghost state) {after : State Process}
    (same : ghost process = known) (point : Point) (still : Still process state after)
    (lock : point.lock = known.point.lock) (extra : point.extra = known.point.extra)
    (notCreated : ∀ id, point ≠ .created id) (notHalf : ∀ id, known.point ≠ .half id)
    (removing : ∀ id, point = .removing id → ∀ other, (ghost other).point ≠ .created id)
    (placed : Placed timely unslept process { known with point := point } after) :
    Valid timely unslept (Function.update ghost process { known with point := point }) after := by
  subst same
  have taken (id : Nat) :
      Known.taken { ghost process with point := point } id = (ghost process).taken id := by
    rw [Known.taken, Known.taken, extra]
  apply valid.quiet still.ids still.sets still.created still.semadj still.settings still.removals
    still.asleep still.answer
  · rw [still.calling]
    exact valid.calling_update rfl
  · rw [still.references]
    exact valid.references_update rfl
  · exact taken
  · exact lock
  · exact notCreated
  · exact notHalf
  · exact fun id isRemoving other _ => removing id isRemoving other
  · exact placed

/-- A step that leaves the process where it is. -/
theorem Valid.stay (valid : Valid timely unslept ghost state) {after : State Process}
    (same : ghost process = known) (still : Still process state after)
    (resting : known.point = .resting ∨ ∃ id, known.point = .closing id) :
    Valid timely unslept (Function.update ghost process known) after := by
  rcases known with ⟨point, references, calling⟩
  rcases resting with rfl | ⟨id, rfl⟩
  · exact valid.point same .resting still rfl rfl nofun nofun nofun trivial
  · exact valid.point same (.closing id) still rfl rfl nofun nofun nofun trivial

/-! ## Lists of operations -/

theorem conserves_lock : ∀ op ∈ op_lock, op.amount = 0 ∨ op.undo = true := by decide

theorem conserves_endcreate : ∀ op ∈ op_endcreate, op.amount = 0 ∨ op.undo = true := by decide

theorem conserves_open : ∀ op ∈ op_open, op.amount = 0 ∨ op.undo = true := by decide

theorem conserves_close : ∀ op ∈ op_close, op.amount = 0 ∨ op.undo = true := by decide

theorem conserves_unlock : ∀ op ∈ op_unlock, op.amount = 0 ∨ op.undo = true := by decide

theorem conserves_op (value : Int) : ∀ op ∈ op_op value, op.amount = 0 ∨ op.undo = true := by
  intro op member
  rw [List.mem_singleton.mp member]
  exact Or.inr rfl

/-- What a list of operations does to the members and to what is given back. -/
theorem done_eq {values adjust values' adjust' : Member → Int}
    (undo : ∀ op ∈ ops, op.amount = 0 ∨ op.undo = true)
    (done : attempt SEMVMX ops values adjust = .done values' adjust') (member : Member) :
    values' member = values member + added ops member ∧
      adjust' member = adjust member - added ops member := by
  have conserved := attempt_conserves undo done member
  have isValue := attempt_added done member
  exact ⟨isValue, by omega⟩

theorem Valid.done (valid : Valid timely unslept ghost state) {after : State Process}
    {values values' adjust' : Member → Int} (same : ghost process = known) (point : Point)
    (isValues : state.sets id = some values) (undo : ∀ op ∈ ops, op.amount = 0 ∨ op.undo = true)
    (done : attempt SEMVMX ops values (state.semadj process id) = .done values' adjust')
    (operated : Operated process id values' adjust' state after)
    (taken : (known.taken id : Int) - added ops 1 = Known.taken { known with point := point } id)
    (extra : ∀ other, other ≠ id → (point.extra = some other ↔ known.point.extra = some other))
    (held : (if known.point.lock = some id then (-1 : Int) else 0) - added ops 2 =
      if point.lock = some id then -1 else 0)
    (lock : ∀ other, other ≠ id → (point.lock = some other ↔ known.point.lock = some other))
    (one : values 2 + added ops 2 ≤ 1) (unset : state.settings id 1 = 0 → added ops 1 = 0)
    (few : owed (fun one => state.semadj one id) 1 - added ops 1 < BIGCOUNT)
    (notHalf : ∀ id, known.point ≠ .half id)
    (created : ∀ other, point = .created other → ∀ one, one ≠ process →
      (ghost one).point ≠ .removing other)
    (notRemoving : ∀ id, point ≠ .removing id)
    (value : ∀ other, other ≠ process → (ghost other).point = .removing id → timely →
      added ops 1 = 0)
    (placed : Placed timely unslept process { known with point := point } after) :
    Valid timely unslept (Function.update ghost process { known with point := point }) after := by
  subst same
  have counted := valid.counted id values isValues
  have first := done_eq undo done 1
  have second := done_eq undo done 2
  have isTaken := counted.taken process
  have isHeld := counted.held process
  let next : Known := { ghost process with point := point }
  apply @Valid.operated _ _ _ _ _ _ _ _ process next valid _ _ _ _ _ isValues undo done operated rfl rfl
  · exact first.2.trans ((congrArg (fun had => had - added ops 1) isTaken).trans taken)
  · intro other different
    change (ghost process).references other + (if point.extra = some other then 1 else 0) =
      (ghost process).references other + if (ghost process).point.extra = some other then 1 else 0
    simp only [extra other different]
  · rw [second.2, isHeld]
    exact held
  · exact lock
  · omega
  · intro isUnset
    have nothing := unset isUnset
    rcases counted.counter with ⟨_, zero, _⟩ | ⟨_, isSet, _⟩
    · omega
    · omega
  · exact notHalf
  · exact created
  · exact notRemoving
  · intro other different isRemoving prompt
    have nothing := value other different isRemoving prompt
    omega
  · omega
  · exact placed

omit [Fintype Process] in
theorem operated_operated (values adjust : Member → Int) :
    Operated process id values adjust state ((state.told process none).operated process id values adjust) where
  ids := rfl
  sets := rfl
  created := rfl
  semadj := rfl
  asleep := fun _ _ => rfl
  calling := rfl
  answer := fun _ different => Function.update_of_ne different _ _
  references := rfl
  settings := rfl
  removals := rfl

omit [Fintype Process] in
theorem operated_awake (values adjust : Member → Int) :
    Operated process id values adjust state
      (((state.told process none).operated process id values adjust).sleep process none) where
  ids := rfl
  sets := rfl
  created := rfl
  semadj := rfl
  asleep := fun _ different => Function.update_of_ne different _ _
  calling := rfl
  answer := fun _ different => Function.update_of_ne different _ _
  references := rfl
  settings := rfl
  removals := rfl

omit [Fintype Process] in
/-- All that `semop` can do. -/
theorem step_semop {answer : Option (Except Errno Unit)} {after : State Process}
    (stepped : Step process (.semop id ops) state answer after) :
    (state.sets id = none ∧ answer = some (.error .EINVAL) ∧ after = state.told process none) ∨
    ∃ values, state.sets id = some values ∧
      ((∃ values' adjust', attempt SEMVMX ops values (state.semadj process id) = .done values' adjust' ∧
          answer = some (.ok ()) ∧ Operated process id values' adjust' state after) ∨
        (attempt SEMVMX ops values (state.semadj process id) = .blocks ∧ answer = none ∧
          after = (state.told process none).sleep process (some (id, ops))) ∨
        (attempt SEMVMX ops values (state.semadj process id) = .outOfRange ∧
          answer = some (.error .ERANGE) ∧ after = state.told process none)) := by
  rw [Step, KernelStep, State.told_sets, State.told_semadj] at stepped
  cases isSet : state.sets id with
  | none =>
      rw [isSet] at stepped
      exact Or.inl ⟨rfl, stepped⟩
  | some values =>
      rw [isSet] at stepped
      refine Or.inr ⟨values, rfl, ?_⟩
      dsimp only at stepped
      cases tried : attempt SEMVMX ops values (state.semadj process id) with
      | done values' adjust' =>
          rw [tried] at stepped
          rcases stepped with ⟨isAnswer, rfl⟩
          exact Or.inl ⟨values', adjust', rfl, isAnswer, operated_operated values' adjust'⟩
      | blocks =>
          rw [tried] at stepped
          exact Or.inr (Or.inl ⟨rfl, stepped⟩)
      | outOfRange =>
          rw [tried] at stepped
          exact Or.inr (Or.inr ⟨rfl, stepped⟩)

omit [Fintype Process] in
/-- All that can wake a `semop`. -/
theorem step_awake {answer : Except Errno Unit} {after : State Process}
    (stepped : Step process (.awake id ops) state answer after) :
    (state.sets id = none ∧ answer = .error .EIDRM ∧
      after = (state.told process none).sleep process none) ∨
    ∃ values, state.sets id = some values ∧
      ((∃ values' adjust', attempt SEMVMX ops values (state.semadj process id) = .done values' adjust' ∧
          answer = .ok () ∧ Operated process id values' adjust' state after) ∨
        (attempt SEMVMX ops values (state.semadj process id) = .outOfRange ∧
          answer = .error .ERANGE ∧ after = (state.told process none).sleep process none)) := by
  rw [Step, KernelStep, State.told_sets, State.told_semadj] at stepped
  cases isSet : state.sets id with
  | none =>
      rw [isSet] at stepped
      exact Or.inl ⟨rfl, stepped⟩
  | some values =>
      rw [isSet] at stepped
      refine Or.inr ⟨values, rfl, ?_⟩
      dsimp only at stepped
      cases tried : attempt SEMVMX ops values (state.semadj process id) with
      | done values' adjust' =>
          rw [tried] at stepped
          rcases stepped with ⟨isAnswer, rfl⟩
          exact Or.inl ⟨values', adjust', rfl, isAnswer, operated_awake values' adjust'⟩
      | blocks =>
          rw [tried] at stepped
          exact stepped.elim
      | outOfRange =>
          rw [tried] at stepped
          exact Or.inr ⟨rfl, stepped⟩

omit [Fintype Process] [DecidableEq Process] in
theorem attempt_lock {values adjust : Member → Int} (nothing : adjust 2 = 0) :
    attempt SEMVMX op_lock values adjust = .blocks ∨
      ∃ values' adjust', attempt SEMVMX op_lock values adjust = .done values' adjust' := by
  by_cases zero : values 2 = 0
  · refine Or.inr ⟨Function.update values 2 (values 2 + 1), Function.update adjust 2 (adjust 2 - 1), ?_⟩
    rw [op_lock, attempt_zero zero (by rw [nothing]; decide) (by rw [nothing]; decide),
      attempt_cons rfl (by rw [zero]; decide) (fun _ => zero) (by rw [zero]; decide)
        (by rw [nothing]; decide) (by rw [nothing]; decide), attempt]
  · exact Or.inl (attempt_occupied zero)

/-- `sem_create` gets the lock. -/
theorem Valid.locks (valid : Valid timely unslept ghost state) {after : State Process}
    {values values' adjust' : Member → Int} (same : ghost process = known)
    (waiting : (∃ round, known.point = .got id round) ∨ ∃ round, known.point = .sleeping id round)
    (isValues : state.sets id = some values)
    (done : attempt SEMVMX op_lock values (state.semadj process id) = .done values' adjust')
    (operated : Operated process id values' adjust' state after) :
    Valid timely unslept
      (Function.update ghost process { known with point := .locked id }) after := by
  have free : values 2 = 0 := (attempt_cons_done done).2.1 rfl
  have noLock : known.point.lock = none := by
    rcases waiting with ⟨round, isPoint⟩ | ⟨round, isPoint⟩ <;> rw [isPoint] <;> rfl
  have noExtra : known.point.extra = none := by
    rcases waiting with ⟨round, isPoint⟩ | ⟨round, isPoint⟩ <;> rw [isPoint] <;> rfl
  have taken : Known.taken { known with point := .locked id } id = known.taken id := by
    rw [Known.taken, Known.taken, noExtra]
    rfl
  apply valid.done same (.locked id) isValues conserves_lock done operated
  · rw [taken]
    exact Int.sub_zero _
  · intro other _
    rw [noExtra]
    rfl
  · rw [noLock, if_neg (fun equal => by cases equal)]
    exact (if_pos rfl).symm
  · intro other different
    rw [noLock]
    exact iff_of_false (fun equal => different (Option.some.inj equal).symm) (fun equal => by cases equal)
  · rw [free]
    decide
  · exact fun _ => rfl
  · exact (Int.sub_zero _).symm ▸ (valid.counted id values isValues).few
  · intro other isHalf
    rw [isHalf] at noLock
    cases noLock
  · exact fun _ => Point.noConfusion
  · exact fun _ => Point.noConfusion
  · exact fun _ _ _ _ => rfl
  · exact trivial

theorem safe_lock {rest : Except Errno Unit → Code Result} {round : Nat} {key initval : Int}
    (isPoint : known.point = .got id round) (creating : known.calling = some (.create key initval))
    (missing : (semLogic Process timely unslept rounds).Safe process post
      (rest (.error .EINVAL)) { known with point := .trying (round + 1) })
    (removed : ¬ unslept → (semLogic Process timely unslept rounds).Safe process post
      (rest (.error .EIDRM)) { known with point := .resting })
    (locked : (semLogic Process timely unslept rounds).Safe process post (rest (.ok ()))
      { known with point := .locked id }) :
    (semLogic Process timely unslept rounds).Safe process post (semop id op_lock >>= rest)
      known := by
  rcases known with ⟨point, references, calling⟩
  rcases isPoint with rfl
  rw [semop, Program.bind_assoc]
  have permitted : Known.Permitted unslept rounds ⟨.got id round, references, calling⟩
      (.semop id op_lock) := trivial
  apply safe_moves permitted
  intro ghost state valid same answer after stepped _ _ _
  have placed := valid.placed process
  rw [same] at placed
  rcases step_semop stepped with ⟨absent, rfl, rfl⟩ | ⟨values, isValues, outcome⟩
  · refine ⟨_, valid.point same (.trying (round + 1)) still rfl rfl nofun nofun nofun ?_, missing⟩
    exact placed.2 absent
  · have nothing := (valid.counted id values isValues).held process
    rw [same, if_neg nofun] at nothing
    rcases outcome with ⟨values', adjust', done, rfl, operated⟩ | ⟨_, rfl, rfl⟩ | ⟨outside, _⟩
    · exact ⟨_, valid.locks same (Or.inl ⟨round, rfl⟩) isValues done operated, locked⟩
    · refine ⟨{ point := .sleeping id round, references := references, calling := calling }, ?_, ?_⟩
      · apply valid.point same (.sleeping id round) (still_sleep _) rfl rfl nofun nofun nofun
        refine ⟨placed, Function.update_self _ _ _, fun _ absent => ?_⟩
        exact Option.some_ne_none values (isValues.symm.trans absent)
      · have asleep : Known.Permitted unslept rounds ⟨.sleeping id round, references, calling⟩
            (.awake id op_lock) := by
          refine ⟨rfl, ?_⟩
          rw [creating]
        apply safe_moves asleep
        intro ghost state valid same answer after stepped _ _ _
        have placed := valid.placed process
        rw [same] at placed
        rcases step_awake stepped with ⟨absent, rfl, rfl⟩ | ⟨values, isValues, outcome⟩
        · refine ⟨_, valid.point same .resting (still_sleep _) rfl rfl nofun nofun nofun trivial, ?_⟩
          exact removed fun prompt => placed.2.2 prompt absent
        · rcases outcome with ⟨values', adjust', done, rfl, operated⟩ | ⟨outside, _⟩
          · exact ⟨_, valid.locks same (Or.inr ⟨round, rfl⟩) isValues done operated, locked⟩
          · have nothing := (valid.counted id values isValues).held process
            rw [same, if_neg nofun] at nothing
            rcases attempt_lock nothing with blocked | ⟨_, _, done⟩
            · exact absurd (blocked.symm.trans outside) nofun
            · exact absurd (done.symm.trans outside) nofun
    · rcases attempt_lock nothing with blocked | ⟨_, _, done⟩
      · exact absurd (blocked.symm.trans outside) nofun
      · exact absurd (done.symm.trans outside) nofun

/-- Operations that a process may wait for without anything in hand. -/
theorem safe_waits {rest : Except Errno Unit → Code Result} (point : Point)
    (here : known.point = .resting ∨ ∃ id, known.point = .closing id)
    (permitted : known.Permitted unslept rounds (.awake id ops))
    (done : ∀ ghost state after values values' adjust',
      Valid timely unslept ghost state → ghost process = known → state.sets id = some values →
      owed (fun one => state.semadj one id) 1 - added ops 1 < BIGCOUNT →
      (timely → Timely (.semop id ops) state) →
      attempt SEMVMX ops values (state.semadj process id) = .done values' adjust' →
      Operated process id values' adjust' state after → Valid timely unslept
        (Function.update ghost process { known with point := point }) after)
    (fails : ∀ errno, (semLogic Process timely unslept rounds).Safe process post
      (rest (.error errno)) known)
    (safe : (semLogic Process timely unslept rounds).Safe process post (rest (.ok ()))
      { known with point := point }) :
    (semLogic Process timely unslept rounds).Safe process post (semop id ops >>= rest)
      known := by
  rw [semop, Program.bind_assoc]
  have first : known.Permitted unslept rounds (.semop id ops) := trivial
  apply safe_moves first
  intro ghost state valid same answer after stepped few prompt _
  rcases step_semop stepped with ⟨_, rfl, rfl⟩ | ⟨values, isValues, outcome⟩
  · exact ⟨known, valid.stay same still here, fails .EINVAL⟩
  · rcases outcome with ⟨values', adjust', tried, rfl, operated⟩ | ⟨_, rfl, rfl⟩ | ⟨_, rfl, rfl⟩
    · have present : state.sets id ≠ none := isValues ▸ Option.some_ne_none values
      exact ⟨_, done ghost state after values values' adjust' valid same isValues
        (few present) prompt tried operated, safe⟩
    · refine ⟨known, valid.stay same (still_sleep _) here, ?_⟩
      apply safe_moves permitted
      intro ghost state valid same answer after stepped few prompt _
      rcases step_awake stepped with ⟨_, rfl, rfl⟩ | ⟨values, isValues, outcome⟩
      · exact ⟨known, valid.stay same (still_sleep _) here, fails .EIDRM⟩
      · rcases outcome with ⟨values', adjust', tried, rfl, operated⟩ | ⟨_, rfl, rfl⟩
        · have present : state.sets id ≠ none := isValues ▸ Option.some_ne_none values
          exact ⟨_, done ghost state after values values' adjust' valid same isValues
            (few present) prompt tried operated, safe⟩
        · exact ⟨known, valid.stay same (still_sleep _) here, fails .ERANGE⟩
    · exact ⟨known, valid.stay same still here, fails .ERANGE⟩

theorem safe_op {rest : Except Errno Unit → Code Result} {value : Int}
    (isPoint : known.point = .resting)
    (permitted : known.Permitted unslept rounds (.awake id (op_op value)))
    (fails : ∀ errno, (semLogic Process timely unslept rounds).Safe process post
      (rest (.error errno)) known)
    (safe : (semLogic Process timely unslept rounds).Safe process post (rest (.ok ())) known) :
    (semLogic Process timely unslept rounds).Safe process post
      (semop id (op_op value) >>= rest) known := by
  rcases known with ⟨point, references, calling⟩
  rcases isPoint with rfl
  apply safe_waits .resting (Or.inl rfl) permitted _ fails safe
  intro ghost state after values values' adjust' valid same isValues few _ tried operated
  have counted := valid.counted id values isValues
  apply valid.done same .resting isValues (conserves_op value) tried operated
  · exact Int.sub_zero _
  · exact fun _ _ => Iff.rfl
  · exact Int.sub_zero _
  · exact fun _ _ => Iff.rfl
  · exact (Int.add_zero _).symm ▸ counted.free.2
  · exact fun _ => rfl
  · exact few
  · exact nofun
  · exact nofun
  · exact nofun
  · exact fun _ _ _ _ => rfl
  · exact trivial

theorem taken_extra (references : Nat → Nat) (calling : Option Call) (point : Point)
    (extra : point.extra = some id) :
    Known.taken ⟨point, references, calling⟩ id = references id + 1 := by
  rw [Known.taken]
  dsimp only
  rw [if_pos extra]

theorem taken_none (references : Nat → Nat) (calling : Option Call) (point : Point)
    (extra : point.extra = none) : Known.taken ⟨point, references, calling⟩ id = references id := by
  rw [Known.taken]
  dsimp only
  rw [extra, if_neg (fun equal => by cases equal), Nat.add_zero]

theorem safe_open {rest : Except Errno Unit → Code Result} (isPoint : known.point = .resting)
    (permitted : known.Permitted unslept rounds (.awake id op_open))
    (fails : ∀ errno, (semLogic Process timely unslept rounds).Safe process post
      (rest (.error errno)) known)
    (safe : (semLogic Process timely unslept rounds).Safe process post (rest (.ok ()))
      { known with point := .opened id }) :
    (semLogic Process timely unslept rounds).Safe process post (semop id op_open >>= rest)
      known := by
  rcases known with ⟨point, references, calling⟩
  rcases isPoint with rfl
  apply safe_waits (.opened id) (Or.inl rfl) permitted _ fails safe
  intro ghost state after values values' adjust' valid same isValues few prompt tried operated
  have counted := valid.counted id values isValues
  have enough : 0 ≤ values 1 + -1 := (attempt_cons_done tried).1
  have isTaken : Known.taken ⟨.opened id, references, calling⟩ id = references id + 1 :=
    taken_extra _ _ _ rfl
  have wasTaken : Known.taken ⟨.resting, references, calling⟩ id = references id :=
    taken_none _ _ _ rfl
  apply valid.done same (.opened id) isValues conserves_open tried operated
  · rw [isTaken, wasTaken]
    rfl
  · exact fun other different =>
      iff_of_false (fun equal => different (Option.some.inj equal).symm) nofun
  · rfl
  · exact fun _ _ => Iff.rfl
  · exact (Int.add_zero _).symm ▸ counted.free.2
  · intro isUnset
    rcases counted.counter with ⟨_, zero, _⟩ | ⟨_, isSet, _⟩
    · omega
    · omega
  · exact few
  · exact nofun
  · exact nofun
  · exact nofun
  · intro other _ isRemoving isTimely
    have placed := valid.placed other
    rw [Placed, isRemoving] at placed
    have calls : state.calling other = some (.close id) := (valid.calling other).trans placed.2.1
    exact absurd placed.2.2.1 (prompt isTimely rfl other calls)
  · exact trivial

theorem safe_close {rest : Except Errno Unit → Code Result} (isPoint : known.point = .closing id)
    (permitted : known.Permitted unslept rounds (.awake id op_close))
    (fails : ∀ errno, (semLogic Process timely unslept rounds).Safe process post
      (rest (.error errno)) known)
    (safe : (semLogic Process timely unslept rounds).Safe process post (rest (.ok ()))
      { known with point := .counted id }) :
    (semLogic Process timely unslept rounds).Safe process post (semop id op_close >>= rest)
      known := by
  rcases known with ⟨point, references, calling⟩
  rcases isPoint with rfl
  apply safe_waits (.counted id) (Or.inr ⟨id, rfl⟩) permitted _ fails safe
  intro ghost state after values values' adjust' valid same isValues few _ tried operated
  have counted := valid.counted id values isValues
  have free : values 2 = 0 := (attempt_cons_done tried).2.1 rfl
  have isTaken : Known.taken ⟨.counted id, references, calling⟩ id = references id :=
    taken_none _ _ _ rfl
  have wasTaken : Known.taken ⟨.closing id, references, calling⟩ id = references id + 1 :=
    taken_extra _ _ _ rfl
  have isSet : state.settings id 0 = 1 ∧ state.settings id 1 = 1 := by
    rcases counted.counter with ⟨_, _, nothing⟩ | ⟨isSet, isSet', _⟩
    · have least := counted.taken_le process
      rw [same, wasTaken] at least
      omega
    · exact ⟨isSet, isSet'⟩
  apply valid.done same (.counted id) isValues conserves_close tried operated
  · rw [isTaken, wasTaken, Nat.cast_add]
    exact Int.add_sub_cancel _ _
  · exact fun other different =>
      iff_of_false nofun fun equal => different (Option.some.inj equal).symm
  · rw [if_neg nofun]
    exact (if_pos rfl).symm
  · exact fun other different =>
      iff_of_false (fun equal => different (Option.some.inj equal).symm) nofun
  · rw [free]
    decide
  · intro isUnset
    omega
  · exact few
  · exact nofun
  · exact nofun
  · exact nofun
  · intro other _ isRemoving
    have occupied := counted.occupied (congrArg Point.lock isRemoving)
    omega
  · rw [Placed]
    dsimp only
    rw [operated.settings]
    exact isSet

/-! ## With the lock -/

/-- Operations that cannot be made to wait by any other process. -/
theorem safe_holding {rest : Except Errno Unit → Code Result} (point : Point)
    (held : known.point.lock = some id)
    (done : ∀ ghost state values, Valid timely unslept ghost state → ghost process = known →
      state.sets id = some values →
      owed (fun one => state.semadj one id) 1 - added ops 1 < BIGCOUNT → ∃ values' adjust',
        attempt SEMVMX ops values (state.semadj process id) = .done values' adjust' ∧
        ∀ after, Operated process id values' adjust' state after → Valid timely unslept
          (Function.update ghost process { known with point := point }) after)
    (safe : (semLogic Process timely unslept rounds).Safe process post (rest (.ok ()))
      { known with point := point }) :
    (semLogic Process timely unslept rounds).Safe process post (semop id ops >>= rest)
      known := by
  rw [semop, Program.bind_assoc]
  have first : known.Permitted unslept rounds (.semop id ops) := trivial
  apply safe_moves first
  intro ghost state valid same answer after stepped few _ _
  rcases step_semop stepped with ⟨absent, _⟩ | ⟨values, isValues, outcome⟩
  · exact absurd absent (valid.held process id (by rw [same]; exact held))
  · have present : state.sets id ≠ none := isValues ▸ Option.some_ne_none values
    rcases done ghost state values valid same isValues (few present) with ⟨values', adjust', tried, becomes⟩
    rcases outcome with ⟨values'', adjust'', tried', rfl, operated⟩ | ⟨blocked, _⟩ | ⟨outside, _⟩
    · rw [tried] at tried'
      cases tried'
      exact ⟨_, becomes after operated, safe⟩
    · exact absurd (tried.symm.trans blocked) nofun
    · exact absurd (tried.symm.trans outside) nofun

theorem safe_endcreate {rest : Except Errno Unit → Code Result} (isPoint : known.point = .ready id)
    (safe : (semLogic Process timely unslept rounds).Safe process post (rest (.ok ()))
      { known with point := .created id }) :
    (semLogic Process timely unslept rounds).Safe process post
      (semop id op_endcreate >>= rest) known := by
  rcases known with ⟨point, references, calling⟩
  rcases isPoint with rfl
  apply safe_holding (.created id) rfl _ safe
  intro ghost state values valid same isValues few
  have counted := valid.counted id values isValues
  have held : (ghost process).point.lock = some id := by
    rw [same]
    rfl
  have isTaken : Known.taken ⟨.created id, references, calling⟩ id = references id + 1 :=
    taken_extra _ _ _ rfl
  have wasTaken : Known.taken ⟨.ready id, references, calling⟩ id = references id :=
    taken_none _ _ _ rfl
  have placed := valid.placed process
  rw [same] at placed
  have isSet : state.settings id 0 = 1 ∧ state.settings id 1 = 1 := placed
  have occupied := counted.occupied held
  have back := counted.taken process
  rw [same, wasTaken] at back
  have backLock := counted.held process
  rw [if_pos held] at backLock
  have small := counted.taken_le process
  rw [same, wasTaken] at small
  have bound := counted.few
  have tried : attempt SEMVMX op_endcreate values (state.semadj process id) =
      .done (Function.update (Function.update values 1 (values 1 + -1)) 2 (values 2 + -1))
        (Function.update (Function.update (state.semadj process id) 1
          (state.semadj process id 1 - -1)) 2 (state.semadj process id 2 - -1)) := by
    have positive : 0 < values 1 ∧ values 1 ≤ BIGCOUNT := by
      rcases counted.value with ⟨isUnset, _⟩ | ⟨_, _, positive⟩
      · omega
      · exact positive
    rw [BIGCOUNT] at positive bound
    rw [op_endcreate, attempt_cons rfl, attempt_cons rfl, attempt]
    · rfl
    · change 0 ≤ values 2 + -1
      omega
    · exact (fun equal => by cases equal)
    · change values 2 + -1 ≤ SEMVMX
      rw [SEMVMX]
      omega
    · change -SEMVMX ≤ state.semadj process id 2 - -1
      rw [SEMVMX]
      omega
    · change state.semadj process id 2 - -1 ≤ SEMVMX
      rw [SEMVMX]
      omega
    · dsimp only
      omega
    · exact (fun equal => by cases equal)
    · dsimp only
      rw [SEMVMX]
      omega
    · dsimp only
      rw [SEMVMX]
      omega
    · dsimp only
      rw [SEMVMX]
      omega
  refine ⟨_, _, tried, fun after operated => ?_⟩
  apply valid.done same (.created id) isValues conserves_endcreate tried operated
  · rw [isTaken, wasTaken]
    rfl
  · exact fun other different =>
      iff_of_false (fun equal => different (Option.some.inj equal).symm) (fun equal => by cases equal)
  · exact congrArg (fun had => had - added op_endcreate 2) (if_pos rfl)
  · exact fun other different =>
      iff_of_false (fun equal => by cases equal) fun equal => different (Option.some.inj equal).symm
  · rw [occupied]
    decide
  · intro isUnset
    omega
  · exact few
  · exact fun _ => Point.noConfusion
  · intro other isCreated one different isRemoving
    cases isCreated
    exact different (counted.exclusive held (congrArg Point.lock isRemoving))
  · exact fun _ => Point.noConfusion
  · exact fun other different isRemoving =>
      absurd (counted.exclusive held (congrArg Point.lock isRemoving)) different
  · refine ⟨?_, ?_⟩
    · rw [operated.sets, Function.update_self]
      exact Option.some_ne_none _
    · rw [operated.settings]
      exact isSet

theorem safe_unlock {rest : Except Errno Unit → Code Result} (isPoint : known.point = .leaving id)
    (safe : (semLogic Process timely unslept rounds).Safe process post (rest (.ok ()))
      { known with point := .resting }) :
    (semLogic Process timely unslept rounds).Safe process post
      (semop id op_unlock >>= rest) known := by
  rcases known with ⟨point, references, calling⟩
  rcases isPoint with rfl
  apply safe_holding .resting rfl _ safe
  intro ghost state values valid same isValues few
  have counted := valid.counted id values isValues
  have held : (ghost process).point.lock = some id := by
    rw [same]
    rfl
  have occupied := counted.occupied held
  have back := counted.held process
  rw [if_pos held] at back
  have tried : attempt SEMVMX op_unlock values (state.semadj process id) =
      .done (Function.update values 2 (values 2 + -1))
        (Function.update (state.semadj process id) 2 (state.semadj process id 2 - -1)) := by
    rw [op_unlock, attempt_cons rfl, attempt]
    · rw [occupied]
      decide
    · exact (fun equal => by cases equal)
    · rw [occupied]
      decide
    · rw [back]
      decide
    · rw [back]
      decide
  refine ⟨_, _, tried, fun after operated => ?_⟩
  apply valid.done same .resting isValues conserves_unlock tried operated
  · exact Int.sub_zero _
  · exact fun _ _ => Iff.rfl
  · exact congrArg (fun had => had - added op_unlock 2) (if_pos rfl)
  · exact fun other different =>
      iff_of_false (fun equal => by cases equal) fun equal => different (Option.some.inj equal).symm
  · rw [occupied]
    decide
  · exact fun _ => rfl
  · exact few
  · exact fun _ => Point.noConfusion
  · exact fun _ => Point.noConfusion
  · exact fun _ => Point.noConfusion
  · exact fun _ _ _ _ => rfl
  · exact trivial

omit [Fintype Process] in
/-- What `GETVAL` answers for a set that is there. -/
theorem step_getval {num : Member} {answer : Except Errno Int} {after : State Process}
    {values : Member → Int} (isValues : state.sets id = some values)
    (stepped : Step process (.getval id num) state answer after) :
    answer = .ok (values num) ∧
      after = (state.told process none).told process (some (values num)) := by
  rw [Step, KernelStep, State.told_sets] at stepped
  rw [isValues] at stepped
  exact stepped

theorem safe_getval_create {rest : Except Errno Int → Code Result}
    (isPoint : known.point = .locked id)
    (fresh : (semLogic Process timely unslept rounds).Safe process post (rest (.ok 0))
      { known with point := .fresh id })
    (ready : ∀ semval, semval ≠ 0 → (semLogic Process timely unslept rounds).Safe process post
      (rest (.ok semval)) { known with point := .ready id }) :
    (semLogic Process timely unslept rounds).Safe process post
      (Program.perform (Command.getval id 1) >>= rest) known := by
  rcases known with ⟨point, references, calling⟩
  rcases isPoint with rfl
  have first : Known.Permitted unslept rounds ⟨.locked id, references, calling⟩ (.getval id 1) :=
    trivial
  apply safe_moves first
  intro ghost state valid same answer after stepped _ _ _
  have held : (ghost process).point.lock = some id := by
    rw [same]
    rfl
  rcases Option.ne_none_iff_exists'.mp (valid.held process id held) with ⟨values, isValues⟩
  have counted := valid.counted id values isValues
  rcases step_getval isValues stepped with ⟨rfl, rfl⟩
  rcases counted.value with ⟨isUnset, zero⟩ | ⟨isSet, isSet', positive, _⟩
  · rw [zero]
    refine ⟨_, valid.point same (.fresh id) (still_told _) rfl rfl nofun nofun nofun ?_, fresh⟩
    refine ⟨?_, isUnset⟩
    rcases counted.halfway isUnset with unset | ⟨other, isHalf⟩
    · exact unset
    · -- Nobody else has the lock.
      have mine := counted.exclusive held (congrArg Point.lock isHalf)
      rw [mine, same] at isHalf
      cases isHalf
  · refine ⟨_, valid.point same (.ready id) (still_told _) rfl rfl nofun nofun nofun ?_,
      ready (values 1) (by omega)⟩
    exact ⟨isSet, isSet'⟩

theorem safe_getval_close {rest : Except Errno Int → Code Result}
    (isPoint : known.point = .counted id) (closing : known.calling = some (.close id))
    (removing : (semLogic Process timely unslept rounds).Safe process post (rest (.ok BIGCOUNT))
      { known with point := .removing id })
    (leaving : ∀ semval, semval < BIGCOUNT →
      (semLogic Process timely unslept rounds).Safe process post (rest (.ok semval))
        { known with point := .leaving id }) :
    (semLogic Process timely unslept rounds).Safe process post
      (Program.perform (Command.getval id 1) >>= rest) known := by
  rcases known with ⟨point, references, calling⟩
  rcases isPoint with rfl
  have first : Known.Permitted unslept rounds ⟨.counted id, references, calling⟩ (.getval id 1) :=
    trivial
  apply safe_moves first
  intro ghost state valid same answer after stepped _ _ _
  have held : (ghost process).point.lock = some id := by
    rw [same]
    rfl
  rcases Option.ne_none_iff_exists'.mp (valid.held process id held) with ⟨values, isValues⟩
  have counted := valid.counted id values isValues
  have placed := valid.placed process
  rw [same] at placed
  have isSet : state.settings id 0 = 1 ∧ state.settings id 1 = 1 := placed
  rcases step_getval isValues stepped with ⟨rfl, rfl⟩
  have most : values 1 ≤ BIGCOUNT := by
    rcases counted.value with ⟨isUnset, _⟩ | ⟨_, _, _, most⟩
    · omega
    · exact most
  by_cases full : values 1 = BIGCOUNT
  · rw [full]
    refine ⟨_, valid.point same (.removing id) (still_told _) rfl rfl (fun _ => Point.noConfusion)
      (fun _ => Point.noConfusion) ?_ ?_, removing⟩
    · intro other isRemoving one isCreated
      cases isRemoving
      have least := counted.taken_le one
      have has : 0 < (ghost one).taken id := by
        rw [Known.taken, isCreated, Point.extra, if_pos rfl]
        exact Nat.succ_pos _
      rcases counted.counter with ⟨isUnset, _⟩ | ⟨_, _, total⟩
      · omega
      · omega
    · refine ⟨isSet, closing, Function.update_self _ _ _, fun _ values' isValues' => ?_⟩
      have again : some values = some values' := isValues.symm.trans isValues'
      rw [← Option.some.inj again]
      exact full
  · exact ⟨_, valid.point same (.leaving id) (still_told _) rfl rfl (fun _ => Point.noConfusion)
      (fun _ => Point.noConfusion) (fun _ => Point.noConfusion) trivial,
      leaving (values 1) (by omega)⟩

omit [Fintype Process] in
/-- What `SETVAL` answers for a set that is there. -/
theorem step_setval {num : Member} {val : Int} {answer : Except Errno Unit} {after : State Process}
    {values : Member → Int} (isValues : state.sets id = some values)
    (stepped : Step process (.setval id num val) state answer after) :
    ((val < 0 ∨ SEMVMX < val) ∧ answer = .error .ERANGE ∧ after = state.told process none) ∨
      (¬ (val < 0 ∨ SEMVMX < val) ∧ answer = .ok () ∧
        after = (state.told process none).set id num values val) := by
  rw [Step, KernelStep, State.told_sets] at stepped
  rw [isValues] at stepped
  change if val < 0 ∨ SEMVMX < val then _ else _ at stepped
  by_cases outside : val < 0 ∨ SEMVMX < val
  · rw [if_pos outside] at stepped
    exact Or.inl ⟨outside, stepped⟩
  · rw [if_neg outside] at stepped
    exact Or.inr ⟨outside, stepped⟩

theorem safe_setval_value {rest : Except Errno Unit → Code Result} {initval : Int}
    (isPoint : known.point = .fresh id)
    (fails : (semLogic Process timely unslept rounds).Safe process post
      (rest (.error .ERANGE)) known)
    (safe : (semLogic Process timely unslept rounds).Safe process post (rest (.ok ()))
      { known with point := .half id }) :
    (semLogic Process timely unslept rounds).Safe process post
      (Program.perform (Command.setval id 0 initval) >>= rest) known := by
  rcases known with ⟨point, references, calling⟩
  rcases isPoint with rfl
  have first : Known.Permitted unslept rounds ⟨.fresh id, references, calling⟩
      (.setval id 0 initval) := trivial
  apply safe_moves first
  intro ghost state valid same answer after stepped _ _ _
  have held : (ghost process).point.lock = some id := by
    rw [same]
    rfl
  rcases Option.ne_none_iff_exists'.mp (valid.held process id held) with ⟨values, isValues⟩
  have counted := valid.counted id values isValues
  have placed := valid.placed process
  rw [same] at placed
  have unset : state.settings id 0 = 0 ∧ state.settings id 1 = 0 := placed
  rcases step_setval isValues stepped with ⟨_, rfl, rfl⟩ | ⟨_, rfl, rfl⟩
  · exact ⟨_, valid.point same (.fresh id) still rfl rfl nofun nofun nofun placed, fails⟩
  · refine ⟨{ point := .half id, references := references, calling := calling }, ?_, safe⟩
    have lock : (Point.half id).lock = some id := rfl
    apply valid.set isValues (by rw [same]) (by rw [same]) (by rw [same]; rfl) held lock unset.2
    · exact fun _ => Point.noConfusion
    · exact fun _ => Point.noConfusion
    · change Function.update state.settings id _ id 0 = 1 ∧ Function.update state.settings id _ id 1 = 0
      rw [Function.update_self, Function.update_self, Function.update_of_ne (by decide)]
      exact ⟨congrArg (fun count => count + 1) unset.1, unset.2⟩
    · have kept : Counted (Function.update ghost process ⟨.half id, references, calling⟩) id
          (state.settings id) (fun one => state.semadj one id) values := by
        apply counted.keep
        · rw [same]
          rfl
        · rw [same]
          exact Iff.rfl
        · exact fun _ _ => rfl
      have half : (Function.update ghost process ⟨.half id, references, calling⟩ process).point =
          .half id := by
        rw [Function.update_self]
      exact kept.set_value unset.2 half _ initval

theorem safe_setval_counter {rest : Except Errno Unit → Code Result}
    (isPoint : known.point = .half id)
    (safe : (semLogic Process timely unslept rounds).Safe process post (rest (.ok ()))
      { known with point := .ready id }) :
    (semLogic Process timely unslept rounds).Safe process post
      (Program.perform (Command.setval id 1 BIGCOUNT) >>= rest) known := by
  rcases known with ⟨point, references, calling⟩
  rcases isPoint with rfl
  have first : Known.Permitted unslept rounds ⟨.half id, references, calling⟩
      (.setval id 1 BIGCOUNT) := trivial
  apply safe_moves first
  intro ghost state valid same answer after stepped _ _ _
  have held : (ghost process).point.lock = some id := by
    rw [same]
    rfl
  rcases Option.ne_none_iff_exists'.mp (valid.held process id held) with ⟨values, isValues⟩
  have counted := valid.counted id values isValues
  have placed := valid.placed process
  rw [same] at placed
  have half : state.settings id 0 = 1 ∧ state.settings id 1 = 0 := placed
  rcases step_setval isValues stepped with ⟨outside, _⟩ | ⟨_, rfl, rfl⟩
  · exact absurd outside (by decide)
  · refine ⟨{ point := .ready id, references := references, calling := calling }, ?_, safe⟩
    have lock : (Point.ready id).lock = some id := rfl
    apply valid.set isValues (by rw [same]) (by rw [same]) (by rw [same]; rfl) held lock half.2
    · exact fun _ => Point.noConfusion
    · exact fun _ => Point.noConfusion
    · change Function.update state.settings id _ id 0 = 1 ∧ Function.update state.settings id _ id 1 = 1
      rw [Function.update_self, Function.update_self, Function.update_of_ne (by decide)]
      exact ⟨half.1, congrArg (fun count => count + 1) half.2⟩
    · -- The set is complete.
      have complete := counted.set_counter half.2 half.1
      rw [half.2]
      apply complete.keep
      · rw [same]
        rfl
      · rw [same]
        exact Iff.rfl
      · intro unset
        rw [Function.update_self] at unset
        cases unset

theorem safe_rmid {rest : Except Errno Unit → Code Result} (isPoint : known.point = .removing id)
    (safe : (semLogic Process timely unslept rounds).Safe process post (rest (.ok ()))
      { known with point := .resting }) :
    (semLogic Process timely unslept rounds).Safe process post
      (Program.perform (Command.rmid id) >>= rest) known := by
  have first : known.Permitted unslept rounds (.rmid id) := isPoint
  apply safe_moves first
  intro ghost state valid same answer after stepped _ _ awake
  subst same
  have held : (ghost process).point.lock = some id := congrArg Point.lock isPoint
  rcases Option.ne_none_iff_exists'.mp (valid.held process id held) with ⟨values, isValues⟩
  rw [Step, KernelStep, State.told_sets] at stepped
  rw [isValues] at stepped
  rcases stepped with ⟨rfl, rfl⟩
  exact ⟨_, valid.remove isPoint fun prompt => awake prompt, safe⟩

theorem safe_exit {rest : Unit → Code Result} {failure : Failure}
    (permitted : known.Permitted unslept rounds (.exit failure))
    (notHalf : ∀ id, known.point ≠ .half id)
    (safe : (semLogic Process timely unslept rounds).Safe process post (rest ())
      ⟨.resting, fun _ => 0, known.calling⟩) :
    (semLogic Process timely unslept rounds).Safe process post
      (Program.perform (Command.exit failure) >>= rest) known := by
  apply safe_moves permitted
  intro ghost state valid same answer after stepped _ _ _
  subst same
  have isAfter : after = (state.told process none).exit process := stepped
  rw [isAfter]
  exact ⟨_, valid.exit notHalf, safe⟩

/-! ## Calls and their results -/

theorem safe_calls {rest : Unit → Code Result} {call : Call} {references : Nat → Nat}
    {calling : Option Call} (point : Point) (isKnown : known = ⟨.resting, references, calling⟩)
    (isPoint : point = match call with
      | .create _ _ => .trying 0 | .close id => .closing id | _ => .resting)
    (may : ∀ id, call = .close id → 0 < references id)
    (safe : (semLogic Process timely unslept rounds).Safe process post (rest ())
      ⟨point, giving references call, some call⟩) :
    (semLogic Process timely unslept rounds).Safe process post
      (Program.perform (Command.calls call) >>= rest) known := by
  subst isKnown
  have first : Known.Permitted unslept rounds ⟨.resting, references, calling⟩ (.calls call) := rfl
  apply safe_moves first
  intro ghost state valid same answer after stepped _ _ _
  have isAfter : after = (state.told process none).calls process call := stepped
  have was : state.references process = references := by
    rw [valid.references, same]
  have noLock : point.lock = none := by
    rw [isPoint]
    cases call <;> rfl
  refine ⟨_, ?_, safe⟩
  rw [isAfter]
  refine valid.quiet rfl rfl rfl rfl rfl rfl (fun _ _ => rfl)
    (fun _ different => Function.update_of_ne different _ _) rfl ?_ ?_ ?_ ?_ ?_ ?_ ?_
  · exact congrArg (fun references => Function.update state.references process (giving references call))
      was
  · intro id
    rw [same, isPoint]
    cases call with
    | close other =>
        have has := may other rfl
        by_cases here : id = other
        · rw [here, taken_extra _ _ _ rfl, taken_none _ _ _ rfl, giving, Function.update_self]
          omega
        · rw [Known.taken, taken_none _ _ _ rfl, giving]
          dsimp only
          rw [Function.update_of_ne here, Point.extra,
            if_neg fun equal => here (Option.some.inj equal).symm, Nat.add_zero]
    | create | open_ | wait | signal => rfl
  · rw [same]
    exact noLock
  · intro id isCreated
    change point = .created id at isCreated
    rw [isCreated] at isPoint
    cases call <;> cases isPoint
  · intro id isHalf
    rw [same] at isHalf
    cases isHalf
  · intro id isRemoving
    change point = .removing id at isRemoving
    rw [isRemoving] at noLock
    cases noLock
  · rw [isPoint]
    cases call with
    | create => exact Nat.zero_le _
    | open_ | wait | signal | close => exact trivial

theorem safe_returns {rest : Unit → Code Result} {call : Call} {result : Option Nat}
    (permitted : known.Permitted unslept rounds (.returns call result))
    (lock : known.point.lock = none) (extra : known.point.extra = call.opens result)
    (safe : (semLogic Process timely unslept rounds).Safe process post (rest ())
      ⟨.resting, taking known.references (call.opens result), none⟩) :
    (semLogic Process timely unslept rounds).Safe process post
      (Program.perform (Command.returns call result) >>= rest) known := by
  apply safe_moves permitted
  intro ghost state valid same answer after stepped _ _ _
  subst same
  have isAfter : after = (state.told process none).returns process call result := stepped
  refine ⟨_, ?_, safe⟩
  rw [isAfter]
  refine valid.quiet rfl rfl rfl rfl rfl rfl (fun _ _ => rfl)
    (fun _ different => Function.update_of_ne different _ _) rfl ?_ ?_ ?_ ?_ ?_ ?_ ?_
  · exact congrArg (fun references => Function.update state.references process
      (taking references (call.opens result))) (valid.references process)
  · intro id
    rw [taken_none _ _ _ rfl, Known.taken, extra]
    cases call.opens result with
    | none =>
        rw [if_neg (fun equal => by cases equal)]
        rfl
    | some other =>
        rw [taking]
        by_cases here : id = other
        · rw [here, Function.update_self, if_pos rfl]
        · rw [Function.update_of_ne here, if_neg fun equal => here (Option.some.inj equal).symm,
            Nat.add_zero]
  · exact lock.symm
  · exact fun _ => Point.noConfusion
  · intro id isHalf
    rw [isHalf] at lock
    cases lock
  · exact fun _ => Point.noConfusion
  · exact trivial

/-- `semget` names a set or makes one. -/
theorem safe_semget_create {rest : Option Nat → Code Result} {key : Int} {round : Nat}
    (isPoint : known.point = .trying round)
    (fails : (semLogic Process timely unslept rounds).Safe process post (rest none) known)
    (safe : ∀ id, (semLogic Process timely unslept rounds).Safe process post (rest (some id))
      { known with point := .got id round }) :
    (semLogic Process timely unslept rounds).Safe process post
      (Program.perform (Command.semget key true) >>= rest) known := by
  rcases known with ⟨point, references, calling⟩
  rcases isPoint with rfl
  have first : Known.Permitted unslept rounds ⟨.trying round, references, calling⟩
      (.semget key true) := trivial
  apply safe_moves first
  intro ghost state valid same answer after stepped _ _ _
  have placed := valid.placed process
  rw [same] at placed
  have bound : round ≤ state.removals := placed
  rw [Step, KernelStep, State.told_ids] at stepped
  rcases stepped with ⟨rfl, rfl⟩ | stepped
  · exact ⟨_, valid.point same (.trying round) still rfl rfl (fun _ => Point.noConfusion)
      (fun _ => Point.noConfusion) (fun _ => Point.noConfusion) placed, fails⟩
  · cases named : state.ids key with
    | some id =>
        rw [named] at stepped
        rcases stepped with ⟨rfl, rfl⟩
        refine ⟨_, valid.point same (.got id round) still rfl rfl (fun _ => Point.noConfusion)
          (fun _ => Point.noConfusion) (fun _ => Point.noConfusion) ?_, safe id⟩
        exact ⟨bound, fun absent => absurd absent (valid.named key id named)⟩
    | none =>
        rw [named] at stepped
        rcases stepped with ⟨_, rfl, rfl⟩
        have made := @Valid.create _ _ _ _ _ _ _ process valid key round (by rw [same]; rfl)
          (by rw [same]; rfl) bound
        rw [same] at made
        exact ⟨_, made, safe state.created⟩

theorem safe_semget_open {rest : Option Nat → Code Result} {key : Int}
    (isPoint : known.point = .resting)
    (safe : ∀ id, (semLogic Process timely unslept rounds).Safe process post (rest id) known) :
    (semLogic Process timely unslept rounds).Safe process post
      (Program.perform (Command.semget key false) >>= rest) known := by
  have first : known.Permitted unslept rounds (.semget key false) := trivial
  apply safe_moves first
  intro ghost state valid same answer after stepped _ _ _
  refine ⟨known, ?_, safe answer⟩
  rw [Step, KernelStep, State.told_ids] at stepped
  rcases stepped with ⟨_, rfl⟩ | stepped
  · exact valid.stay same still (Or.inl isPoint)
  · cases named : state.ids key with
    | some id =>
        rw [named] at stepped
        rcases stepped with ⟨_, rfl⟩
        exact valid.stay same still (Or.inl isPoint)
    | none =>
        rw [named] at stepped
        exact absurd stepped.1 Bool.false_ne_true

end Steps

end Apue.Semaphore
