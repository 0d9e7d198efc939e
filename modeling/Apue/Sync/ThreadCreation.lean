import Apue.Sync.MultiThread

/-! # The threads of `perform_sync` and the objects they share

The main thread creates the workers, waits for them and releases the list and
the locks. Where a thread cannot be created it releases them at once.
-/

namespace Apue.Sync

open Apue.Foundation

/-- What the main thread does once the list is there, and what the workers do.
A worker waits for its creation in `begin`, and is over when it has come to
`finish`. -/
inductive LifeCommand
  | pthreadCreate (index : Nat)
  | pthreadJoin (index : Nat)
  | readStats
  | freeFileList
  | destroyStatsLock
  | returns (code : Int)
  | begin
  | worker (command : WorkerCommand SysCall)
  | finish

def LifeResponse : LifeCommand → Type
  | .pthreadCreate _ => Bool
  | .readStats => Nat
  | .worker command => WorkerResponse SysResponse command
  | _ => Unit

abbrev Life : Type → Type := Program LifeCommand LifeResponse

namespace Life

def pthreadCreate (index : Nat) : Life Bool := .perform (LifeCommand.pthreadCreate index)

def pthreadJoin (index : Nat) : Life Unit := .perform (LifeCommand.pthreadJoin index)

def readStats : Life Nat := .perform LifeCommand.readStats

def freeFileList : Life Unit := .perform LifeCommand.freeFileList

def destroyStatsLock : Life Unit := .perform LifeCommand.destroyStatsLock

def returns (code : Int) : Life Unit := .perform (LifeCommand.returns code)

def begin : Life Unit := .perform LifeCommand.begin

def finish : Life Unit := .perform LifeCommand.finish

end Life

/-- The loop that creates the threads; it ends early where one cannot be
created. -/
def createThreads : Nat → Nat → Life Bool
  | 0, _ => return true
  | remaining + 1, index => do
      if !(← Life.pthreadCreate index) then return false
      createThreads remaining (index + 1)

def joinThreads : Nat → Nat → Life Unit
  | 0, _ => return ()
  | remaining + 1, index => do
      Life.pthreadJoin index
      joinThreads remaining (index + 1)

/-- The end of `perform_sync`, once the loop that creates the threads is over. -/
def afterCreation (threadCount : Nat) (created : Bool) : Life Unit := do
  if !created then
    Life.freeFileList
    Life.destroyStatsLock
    Life.returns 0
  else
    joinThreads threadCount 0
    let errors ← Life.readStats
    Life.freeFileList
    Life.destroyStatsLock
    if errors > 0 then
      Life.returns 0
    else
      Life.returns 1

/-- The end of `perform_sync`, from where it creates its threads. -/
def runThreads (threadCount : Nat) : Life Unit := do
  afterCreation threadCount (← createThreads threadCount 0)

def liftWorker {Result : Type} : Worker SysResponse Result → Life Result
  | .done result => .done result
  | .call command next => .call (.worker command) fun response => liftWorker (next response)

def workerLife (dryRun : Bool) (rounds : Nat) : Life Unit := do
  Life.begin
  liftWorker (workerThread syncFile dryRun rounds)
  Life.finish

/-! ## What is touched late -/

/-- The steps that lock the lock of the list, or read one of its entries. The
paths that `sync_file` gives to these calls stand in the entry. -/
def TouchesList : WorkerCommand SysCall → Prop
  | .getNextFile => True
  | .callSyncFile _ => True
  | .system (.stat _) => True
  | .system (.access _) => True
  | .system (.openRead _) => True
  | .system (.openWrite _) => True
  | .system (.utimes _ _) => True
  | _ => False

/-- The steps that lock `stats_lock`. -/
def TouchesStats : WorkerCommand SysCall → Prop
  | .countProcessed => True
  | .countSynced => True
  | .countError => True
  | _ => False

/-- What the threads share, and what the main thread has released. `late` records
the steps of workers that touched something after its release. -/
structure LifeState (threads : Nat) (State : Type) where
  workers : WorkerState (Fin threads) State
  created : Fin threads → Bool
  finished : Fin threads → Bool
  listFreed : Bool
  statsDestroyed : Bool
  returned : Bool
  late : List (Fin threads × WorkerCommand SysCall)

section Steps

variable {threads : Nat} {State : Type}

def LifeState.Late (state : LifeState threads State) (command : WorkerCommand SysCall) : Prop :=
  TouchesList command ∧ (state.listFreed = true ∨ state.returned = true) ∨
    TouchesStats command ∧ (state.statsDestroyed = true ∨ state.returned = true)

/-- One step of the main thread or of a worker. The thread that cannot be created
is `failing`. -/
inductive LifeStep
    (answers : (call : SysCall) → State → SysResponse call → State → Prop) (failing : Nat) :
    Option (Fin threads) → (command : LifeCommand) → LifeState threads State →
      LifeResponse command → LifeState threads State → Prop
  | created {state} {index : Nat} (thread : Fin threads) (here : thread.val = index)
      (works : index ≠ failing) :
      LifeStep answers failing none (.pthreadCreate index) state true
        { state with created := Function.update state.created thread true }
  | notCreated {state} {index : Nat} (fails : index = failing) :
      LifeStep answers failing none (.pthreadCreate index) state false state
  | joined {state} {index : Nat} (thread : Fin threads) (here : thread.val = index)
      (ended : state.finished thread = true) :
      LifeStep answers failing none (.pthreadJoin index) state () state
  | readStats {state} :
      LifeStep answers failing none .readStats state state.workers.errors state
  | freeFileList {state} :
      LifeStep answers failing none .freeFileList state ()
        { state with
          workers := { state.workers with list := ⟨[], 0, 0⟩ }
          listFreed := true }
  | destroyStatsLock {state} :
      LifeStep answers failing none .destroyStatsLock state () { state with statsDestroyed := true }
  | returns {state} (code : Int) :
      LifeStep answers failing none (.returns code) state () { state with returned := true }
  | begin {state} {thread : Fin threads} (there : state.created thread = true) :
      LifeStep answers failing (some thread) .begin state () state
  | worker {state} {thread : Fin threads} {command : WorkerCommand SysCall}
      {response : WorkerResponse SysResponse command} {after : WorkerState (Fin threads) State}
      (stepped : WorkerStep answers thread command state.workers response after)
      (intime : ¬ state.Late command) :
      LifeStep answers failing (some thread) (.worker command) state response
        { state with workers := after }
  | lateWorker {state} {thread : Fin threads} {command : WorkerCommand SysCall}
      {response : WorkerResponse SysResponse command} {after : WorkerState (Fin threads) State}
      (stepped : WorkerStep answers thread command state.workers response after)
      (late : state.Late command) :
      LifeStep answers failing (some thread) (.worker command) state response
        { state with workers := after, late := state.late ++ [(thread, command)] }
  | finish {state} {thread : Fin threads} :
      LifeStep answers failing (some thread) .finish state ()
        { state with finished := Function.update state.finished thread true }

/-- The main thread with its program, and the workers with theirs. -/
def lifePrograms (main worker : Life Unit) : Option (Fin threads) → Life Unit
  | none => main
  | some _ => worker

/-- The main thread where it begins to create the workers. -/
def startLife (threads : Nat) (dryRun : Bool) (list : FileList) (system : State) :
    Pool (Option (Fin threads)) LifeCommand LifeResponse (LifeState threads State) Unit where
  programs := lifePrograms (runThreads threads) (workerLife dryRun (list.files.length + 1))
  state :=
    { workers := (startWorkers (Fin threads) syncFile dryRun list system).state
      created := fun _ => false
      finished := fun _ => false
      listFreed := false
      statsDestroyed := false
      returned := false
      late := [] }

end Steps

/-! ## The first creation that fails -/

section First

variable {threads : Nat} {State : Type}
  {answers : (call : SysCall) → State → SysResponse call → State → Prop}

/-- No thread is there, the main thread creates none, and no worker has made a
step. -/
structure NoneCreated (dryRun : Bool) (rounds : Nat)
    (pool : Pool (Option (Fin threads)) LifeCommand LifeResponse (LifeState threads State) Unit) :
    Prop where
  workers : ∀ thread, pool.programs (some thread) = workerLife dryRun rounds
  main : pool.programs none = runThreads threads ∨
    (pool.programs none).Avoids fun command => ∃ index, command = .pthreadCreate index
  created : ∀ thread, pool.state.created thread = false
  late : pool.state.late = []

variable {dryRun : Bool} {rounds : Nat}
  {before after : Pool (Option (Fin threads)) LifeCommand LifeResponse
    (LifeState threads State) Unit}

theorem avoids_afterCreation_false (threadCount : Nat) :
    (afterCreation threadCount false).Avoids fun command =>
      ∃ index, command = .pthreadCreate index := by
  refine ⟨?_, fun _ => ⟨?_, fun _ => ⟨?_, fun _ => trivial⟩⟩⟩
  · rintro ⟨index, same⟩
    exact LifeCommand.noConfusion same
  · rintro ⟨index, same⟩
    exact LifeCommand.noConfusion same
  · rintro ⟨index, same⟩
    exact LifeCommand.noConfusion same

/-- The main thread touches nothing late, and it starts a worker only by creating
it. -/
theorem main_step {failing : Nat} {command : LifeCommand} {state after : LifeState threads State}
    {response : LifeResponse command}
    (stepped : LifeStep answers failing none command state response after)
    (different : ¬ ∃ index, command = .pthreadCreate index) :
    after.created = state.created ∧ after.late = state.late := by
  cases stepped with
  | created thread here works => exact absurd ⟨_, rfl⟩ different
  | notCreated fails => exact absurd ⟨_, rfl⟩ different
  | joined thread here ended => exact ⟨rfl, rfl⟩
  | readStats => exact ⟨rfl, rfl⟩
  | freeFileList => exact ⟨rfl, rfl⟩
  | destroyStatsLock => exact ⟨rfl, rfl⟩
  | returns code => exact ⟨rfl, rfl⟩

theorem NoneCreated.step (positive : 0 < threads) (none : NoneCreated dryRun rounds before)
    (stepped : Pool.Step (LifeStep answers 0) before after) : NoneCreated dryRun rounds after := by
  cases stepped with
  | @take thread _ command next response state waiting stepped =>
      cases thread with
      | some thread =>
          rw [none.workers thread] at waiting
          cases waiting
          cases stepped with
          | begin there =>
              rw [none.created thread] at there
              exact absurd there Bool.false_ne_true
      | none =>
          have workers : ∀ other, Function.update before.programs Option.none (next response)
              (some other) = workerLife dryRun rounds := by
            intro other
            rw [Function.update_of_ne (Option.some_ne_none other), none.workers other]
          rcases none.main with whole | avoids
          · rcases Nat.exists_eq_succ_of_ne_zero positive.ne' with ⟨remaining, rfl⟩
            rw [whole] at waiting
            cases waiting
            cases stepped with
            | created thread here works => exact absurd rfl works
            | notCreated fails =>
                refine ⟨workers, Or.inr ?_, none.created, none.late⟩
                dsimp only
                rw [Function.update_self]
                exact avoids_afterCreation_false (remaining + 1)
          · rw [waiting] at avoids
            rcases main_step stepped avoids.1 with ⟨created, late⟩
            refine ⟨workers, Or.inr ?_, fun thread => ?_, late.trans none.late⟩
            · dsimp only
              rw [Function.update_self]
              exact avoids.2 response
            · rw [created, none.created thread]

end First

/-! ## A later creation that fails -/

section Later

variable {threads : Nat} {State : Type}
  {answers : (call : SysCall) → State → SysResponse call → State → Prop}

theorem update_lifePrograms (main worker next : Life Unit) :
    Function.update (lifePrograms main worker : Option (Fin threads) → Life Unit) none next =
      lifePrograms next worker := by
  funext thread
  cases thread with
  | none => exact Function.update_self _ _ _
  | some thread => exact Function.update_of_ne (Option.some_ne_none thread) _ _

/-- A step of the main thread while the workers wait. -/
theorem main_take {failing : Nat} {command : LifeCommand}
    {next : LifeResponse command → Life Unit} {response : LifeResponse command} {worker : Life Unit}
    {state after : LifeState threads State}
    (stepped : LifeStep answers failing none command state response after) :
    Pool.Step (LifeStep answers failing) ⟨lifePrograms (.call command next) worker, state⟩
      ⟨lifePrograms (next response) worker, after⟩ := by
  have step : Pool.Step (LifeStep answers failing)
      ⟨lifePrograms (.call command next) worker, state⟩
      ⟨Function.update (lifePrograms (.call command next) worker) none (next response), after⟩ :=
    .take none rfl stepped
  rw [update_lifePrograms] at step
  exact step

variable (answers)

/-- The main thread creates the threads one by one, while those that are there
wait. -/
theorem creates (dryRun : Bool) (list : FileList) (system : State) {failing : Nat} : ∀ index remaining, index ≤ failing →
    index + remaining = threads →
    ∃ state : LifeState threads State,
      Pool.Reachable (LifeStep answers failing) (startLife threads dryRun list system)
        ⟨lifePrograms (createThreads remaining index >>= afterCreation threads)
          (workerLife dryRun (list.files.length + 1)), state⟩ ∧
      ∀ thread : Fin threads, thread.val < index → state.created thread = true
  | 0, remaining, _, total => by
      rw [Nat.zero_add] at total
      subst total
      exact ⟨_, .refl, fun _ below => absurd below (Nat.not_lt_zero _)⟩
  | index + 1, remaining, below, total => by
      rcases creates dryRun list system index (remaining + 1) (Nat.le_of_succ_le below)
        (by omega) with ⟨state, reached, created⟩
      have works : index ≠ failing := by omega
      refine ⟨_, reached.tail (main_take (.created ⟨index, by omega⟩ rfl works)),
        fun thread within => ?_⟩
      by_cases same : thread = ⟨index, by omega⟩
      · rw [same]
        exact Function.update_self _ _ _
      · have different : thread.val ≠ index := fun equal => same (Fin.ext equal)
        exact (Function.update_of_ne same _ _).trans (created thread (by omega))

/-- A worker that was there before comes to `get_next_file` when the list is
gone. -/
theorem late_getNextFile (dryRun : Bool) (list : FileList) (system : State) {failing : Nat} (there : 0 < failing) (below : failing < threads) :
    ∃ pool, Pool.Reachable (LifeStep answers failing) (startLife threads dryRun list system) pool ∧
      pool.state.late ≠ [] := by
  rcases Nat.exists_eq_add_of_lt below with ⟨more, total⟩
  rcases creates answers dryRun list system failing (more + 1) (Nat.le_refl failing) total.symm with
    ⟨state, reached, created⟩
  have failed := reached.tail (main_take (.notCreated rfl))
  have freed := failed.tail (main_take .freeFileList)
  have first := created ⟨0, Nat.zero_lt_of_lt below⟩ there
  have begun := freed.tail (.take (some ⟨0, Nat.zero_lt_of_lt below⟩) rfl (.begin first))
  have taken := begun.tail (.take (some ⟨0, Nat.zero_lt_of_lt below⟩) rfl
    (.lateWorker (.noFile _ rfl) (Or.inl ⟨trivial, Or.inl rfl⟩)))
  exact ⟨_, taken, List.append_ne_nil_of_right_ne_nil _ (List.cons_ne_nil _ _)⟩

end Later

/-- Nothing is touched after its release, in whatever order the threads take their
steps. -/
def NeverLate {State : Type}
    (answers : (call : SysCall) → State → SysResponse call → State → Prop) (threads : Nat)
    (failing : Nat) (dryRun : Bool) (list : FileList) (system : State) : Prop :=
  ∀ pool, Pool.Reachable (LifeStep answers failing) (startLife threads dryRun list system) pool →
    pool.state.late = []

/-- The error path of `perform_sync` is safe only where no thread is there yet. -/
theorem never_late_iff {State : Type}
    (answers : (call : SysCall) → State → SysResponse call → State → Prop) {threads : Nat}
    {failing : Nat} (below : failing < threads) (dryRun : Bool) (list : FileList)
    (system : State) : NeverLate answers threads failing dryRun list system ↔ failing = 0 := by
  constructor
  · intro never
    by_contra later
    rcases late_getNextFile answers dryRun list system (Nat.pos_of_ne_zero later) below with
      ⟨pool, reached, late⟩
    exact late (never pool reached)
  · rintro rfl pool reached
    have none : NoneCreated dryRun (list.files.length + 1) pool := by
      induction reached with
      | refl => exact ⟨fun _ => rfl, Or.inl rfl, fun _ => rfl, rfl⟩
      | tail _ stepped hypothesis => exact hypothesis.step below stepped
    exact none.late

/-- Four threads, of which the first cannot be created, and a list with one file. -/
theorem never_late_iff_first :
    NeverLate Answers 4 0 false (fillFileList [([97], [98], 3)])
        ⟨fun _ => none, [], [], [], []⟩ ↔ 0 = 0 :=
  never_late_iff Answers (by decide) false (fillFileList [([97], [98], 3)])
    ⟨fun _ => none, [], [], [], []⟩

/-- Of two threads the second cannot be created, and the first one has not come to
its first call of `get_next_file` when the list is released. -/
theorem late_second :
    ¬ NeverLate Answers 2 1 false (fillFileList [([97], [98], 3)])
      ⟨fun _ => none, [], [], [], []⟩ := by
  intro never
  rcases late_getNextFile Answers false (fillFileList [([97], [98], 3)])
    ⟨fun _ => none, [], [], [], []⟩ Nat.one_pos Nat.one_lt_two with ⟨pool, reached, late⟩
  exact late (never pool reached)

end Apue.Sync
