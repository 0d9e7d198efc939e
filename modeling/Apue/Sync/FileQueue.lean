import Apue.Foundation.Ascii
import Apue.Foundation.LocalReasoning
import Mathlib.Algebra.BigOperators.Fin
import Mathlib.Data.Multiset.Range

/-! # The file list and the worker threads

The list of files that the threads of `Multi_thread_rsync_task` share, and
`worker_thread`, which takes files from it. A critical section of the list lock
or of `stats_lock` is one step. The body of `sync_file` is a parameter here; its
calls are interleaved with everything else.
-/

namespace Apue.Sync

open Apue.Foundation

def MAX_PATH_LEN : Nat := 1024

structure FileInfo where
  sourcePath : Bytes
  targetPath : Bytes
  size : Int
  needsSync : Bool

structure FileList where
  files : List FileInfo
  capacity : Nat
  currentIndex : Nat

def initFileList : FileList where
  files := []
  capacity := 100
  currentIndex := 0

def addFileToList (list : FileList) (sourcePath targetPath : Bytes) (size : Int) :
    FileList :=
  { list with
    capacity := if list.files.length ≥ list.capacity then list.capacity * 2
      else list.capacity
    files := list.files ++
      [⟨sourcePath.take (MAX_PATH_LEN - 1), targetPath.take (MAX_PATH_LEN - 1), size,
        true⟩] }

/-- The entry that `current_index` stands at, with its position, which is what
the returned pointer identifies. -/
def getNextFile (list : FileList) : Option (Nat × FileInfo) × FileList :=
  match list.files[list.currentIndex]? with
  | none => (none, list)
  | some file => (some (list.currentIndex, file),
      { list with currentIndex := list.currentIndex + 1 })

theorem getNextFile_none {list rest : FileList} (empty : getNextFile list = (none, rest)) :
    rest = list ∧ list.files.length ≤ list.currentIndex := by
  rw [getNextFile] at empty
  cases found : list.files[list.currentIndex]? with
  | none =>
      rw [found] at empty
      cases empty
      exact ⟨rfl, List.getElem?_eq_none_iff.mp found⟩
  | some file =>
      rw [found] at empty
      cases empty

/-- A list that is filled by calls of `add_file_to_list`. -/
def fillFileList (files : List (Bytes × Bytes × Int)) : FileList :=
  files.foldl (fun list file => addFileToList list file.1 file.2.1 file.2.2) initFileList

theorem fillFileList_files (files : List (Bytes × Bytes × Int)) :
    (fillFileList files).files = files.map (fun file =>
      ⟨file.1.take (MAX_PATH_LEN - 1), file.2.1.take (MAX_PATH_LEN - 1), file.2.2, true⟩) ∧
      (fillFileList files).currentIndex = 0 := by
  have general : ∀ list : FileList,
      (files.foldl (fun list file => addFileToList list file.1 file.2.1 file.2.2)
        list).files = list.files ++ files.map (fun file =>
          ⟨file.1.take (MAX_PATH_LEN - 1), file.2.1.take (MAX_PATH_LEN - 1), file.2.2,
            true⟩) ∧
      (files.foldl (fun list file => addFileToList list file.1 file.2.1 file.2.2)
        list).currentIndex = list.currentIndex := by
    induction files with
    | nil => exact fun list => ⟨(List.append_nil _).symm, rfl⟩
    | cons file files hypothesis =>
        intro list
        rcases hypothesis (addFileToList list file.1 file.2.1 file.2.2) with ⟨all, index⟩
        rw [List.foldl_cons, all, index, List.map_cons]
        exact ⟨List.append_assoc _ _ _, rfl⟩
  exact general initFileList

/-! ## The worker threads -/

/-- The steps of a worker: its critical sections, the call of `sync_file` for an
entry, and what `sync_file` itself does. -/
inductive WorkerCommand (System : Type)
  | getNextFile
  | countProcessed
  | callSyncFile (index : Nat)
  | countSynced
  | countError
  | outOfRounds
  | system (command : System)

def WorkerResponse {System : Type} (Response : System → Type) :
    WorkerCommand System → Type
  | .getNextFile => Option (Nat × FileInfo)
  | .outOfRounds => Empty
  | .system command => Response command
  | _ => Unit

section Worker

variable {System : Type} {Response : System → Type}

def liftSystem {Result : Type} :
    Program System Response Result →
      Program (WorkerCommand System) (WorkerResponse Response) Result
  | .done result => .done result
  | .call command next => .call (.system command) fun response =>
      liftSystem (next response)

theorem liftSystem_bind {Result Next : Type} (program : Program System Response Result)
    (rest : Result → Program System Response Next) :
    liftSystem (program >>= rest) = liftSystem program >>= fun result =>
      liftSystem (rest result) := by
  induction program with
  | done result => rfl
  | call command next hypothesis =>
      exact congrArg (Program.call (WorkerCommand.system command)) (funext hypothesis)

/-- `sync_file` with its arguments: source path, target path and `dry_run`. -/
abbrev SyncFile (System : Type) (Response : System → Type) : Type :=
  Bytes → Bytes → Bool → Program System Response Bool

abbrev Worker (Response : System → Type) : Type → Type :=
  Program (WorkerCommand System) (WorkerResponse Response)

namespace Worker

def getNextFile : Worker Response (Option (Nat × FileInfo)) :=
  .perform WorkerCommand.getNextFile

def countProcessed : Worker Response Unit := .perform WorkerCommand.countProcessed

def callSyncFile (index : Nat) : Worker Response Unit :=
  .perform (WorkerCommand.callSyncFile index)

def countSynced : Worker Response Unit := .perform WorkerCommand.countSynced

def countError : Worker Response Unit := .perform WorkerCommand.countError

def outOfRounds : Worker Response Unit :=
  .call WorkerCommand.outOfRounds fun never : Empty => nomatch never

end Worker

/-- `worker_thread`, with a bound on the rounds of its loop. The bound is one
more than the entries of the list, so that a worker never reaches it. -/
def workerThread (syncFile : SyncFile System Response) (dryRun : Bool) :
    Nat → Worker Response Unit
  | 0 => Worker.outOfRounds
  | rounds + 1 => do
      match ← Worker.getNextFile with
      | none => return ()
      | some (index, file) =>
          Worker.countProcessed
          if file.needsSync then
            Worker.callSyncFile index
            let result ← liftSystem (syncFile file.sourcePath file.targetPath dryRun)
            if result then
              Worker.countSynced
            else
              Worker.countError
          workerThread syncFile dryRun rounds

/-- What the workers share. `handed` and `passed` record who was given an entry
by `get_next_file`, and who called `sync_file` for it. -/
structure WorkerState (Thread State : Type) where
  list : FileList
  filesProcessed : Nat
  filesSynced : Nat
  errors : Nat
  handed : List (Thread × Nat)
  passed : List (Thread × Nat)
  system : State

/-- One step of a worker. What a system call does is given by `perform`. -/
inductive WorkerStep {Thread State : Type}
    (perform : (command : System) → State → Response command → State → Prop)
    (thread : Thread) : (command : WorkerCommand System) → WorkerState Thread State →
      WorkerResponse Response command → WorkerState Thread State → Prop
  | noFile {state} (rest : FileList) (empty : getNextFile state.list = (none, rest)) :
      WorkerStep perform thread .getNextFile state (none : Option (Nat × FileInfo))
        { state with list := rest }
  | nextFile {state} {index : Nat} {file : FileInfo} (rest : FileList)
      (taken : getNextFile state.list = (some (index, file), rest)) :
      WorkerStep perform thread .getNextFile state (some (index, file) : Option (Nat × FileInfo))
        { state with list := rest, handed := state.handed ++ [(thread, index)] }
  | countProcessed {state} :
      WorkerStep perform thread .countProcessed state ()
        { state with filesProcessed := state.filesProcessed + 1 }
  | callSyncFile {state} (index : Nat) :
      WorkerStep perform thread (.callSyncFile index) state ()
        { state with passed := state.passed ++ [(thread, index)] }
  | countSynced {state} :
      WorkerStep perform thread .countSynced state ()
        { state with filesSynced := state.filesSynced + 1 }
  | countError {state} :
      WorkerStep perform thread .countError state ()
        { state with errors := state.errors + 1 }
  | system {state} {command : System} {response : Response command} {after : State}
      (performed : perform command state.system response after) :
      WorkerStep perform thread (.system command) state response
        { state with system := after }

/-- The workers before their first step, as `perform_sync` starts them. -/
def startWorkers (Thread : Type) {State : Type} (syncFile : SyncFile System Response)
    (dryRun : Bool) (list : FileList) (system : State) :
    Pool Thread (WorkerCommand System) (WorkerResponse Response)
      (WorkerState Thread State) Unit where
  programs := fun _ => workerThread syncFile dryRun (list.files.length + 1)
  state :=
    { list := list
      filesProcessed := 0
      filesSynced := 0
      errors := 0
      handed := []
      passed := []
      system := system }

end Worker

/-! ## Where the threads stand -/

/-- How far a worker is with the entry that it was given. -/
inductive Stage
  | idle
  | taken (index : Nat)
  | counted (index : Nat)
  | syncing (index : Nat)
  | finished

/-- The entry that a worker has in hand. -/
def Stage.inHand : Stage → Option Nat
  | .taken index | .counted index | .syncing index => some index
  | .idle | .finished => none

def Stage.uncounted : Stage → Nat
  | .taken _ => 1
  | _ => 0

def Stage.unfinished : Stage → Nat
  | .counted _ | .syncing _ => 1
  | _ => 0

/-- The entry whose call of `sync_file` is still to come. -/
def Stage.pending : Stage → Multiset Nat
  | .taken index | .counted index => {index}
  | _ => 0

/-- The stage of a worker and the number of entries that it was given. -/
structure Progress where
  stage : Stage
  rounds : Nat

section Sum

variable {Thread Value Total : Type} [Fintype Thread] [DecidableEq Thread]
  [AddCommMonoid Total]

theorem sum_update (measure : Value → Total) (values : Thread → Value) (thread : Thread)
    (value : Value) :
    (∑ other, measure (Function.update values thread value other)) +
        measure (values thread) =
      (∑ other, measure (values other)) + measure value := by
  have updated : (fun other => measure (Function.update values thread value other)) =
      Function.update (fun other => measure (values other)) thread (measure value) := by
    funext other
    exact Function.apply_update (fun _ => measure) values thread value other
  rw [updated, Finset.sum_update_of_mem (Finset.mem_univ thread),
    Finset.sum_eq_add_sum_sdiff_singleton_of_mem (Finset.mem_univ thread)
      (fun other => measure (values other))]
  simp only [add_comm, add_left_comm]

theorem exchange_sums {Total : Type} [AddCancelCommMonoid Total]
    {left left' right right' before after : Total}
    (first : left' + after = left + before) (second : right' + before = right + after) :
    left' + right' = left + right := by
  apply add_right_cancel
  calc
    left' + right' + (after + before) = left' + after + (right' + before) :=
      add_add_add_comm _ _ _ _
    _ = left + before + (right + after) := by rw [first, second]
    _ = left + right + (before + after) := add_add_add_comm _ _ _ _
    _ = left + right + (after + before) := by rw [add_comm before]

end Sum

section Counted

variable {Thread State : Type} [Fintype Thread] [DecidableEq Thread]

/-- The list, the counters and the records agree with where the threads stand:
every entry that was handed out and is not yet counted, or not yet passed to
`sync_file`, is in the hands of one thread. -/
structure Counted (files : List FileInfo) (progress : Thread → Progress)
    (state : WorkerState Thread State) : Prop where
  files_eq : state.list.files = files
  index_le : state.list.currentIndex ≤ files.length
  handed : state.handed.map Prod.snd = List.range state.list.currentIndex
  rounds_le : ∀ thread, (progress thread).rounds ≤ state.list.currentIndex
  processed : state.filesProcessed + ∑ thread, (progress thread).stage.uncounted =
    state.list.currentIndex
  outcomes : state.filesSynced + state.errors +
    ∑ thread, (progress thread).stage.unfinished = state.filesProcessed
  passed : (state.passed.map Prod.snd : Multiset Nat) +
    ∑ thread, (progress thread).stage.pending = Multiset.range state.list.currentIndex
  passed_handed : ∀ entry ∈ state.passed, entry ∈ state.handed
  inHand : ∀ thread index, (progress thread).stage.inHand = some index →
    (thread, index) ∈ state.handed
  finished : ∀ thread, (progress thread).stage = .finished →
    state.list.currentIndex = files.length

variable {files : List FileInfo} {progress : Thread → Progress}
  {state : WorkerState Thread State} {thread : Thread} {index rounds : Nat}

omit [DecidableEq Thread] in
theorem counted_start (list : FileList) (start : list.currentIndex = 0) (system : State) :
    Counted list.files (fun _ : Thread => ⟨.idle, 0⟩)
      { list := list, filesProcessed := 0, filesSynced := 0, errors := 0, handed := [],
        passed := [], system := system } where
  files_eq := rfl
  index_le := by simp only [start, Nat.zero_le]
  handed := by simp only [start, List.map_nil, List.range_zero]
  rounds_le := fun _ => Nat.zero_le _
  processed := by simp only [start, Stage.uncounted, Finset.sum_const_zero, add_zero]
  outcomes := by simp only [Stage.unfinished, Finset.sum_const_zero, add_zero]
  passed := by
    simp only [start, Stage.pending, Finset.sum_const_zero, List.map_nil,
      Multiset.coe_nil, Multiset.range_zero, add_zero]
  passed_handed := fun _ member => absurd member (List.not_mem_nil)
  inHand := fun _ _ held => absurd held (by simp [Stage.inHand])
  finished := fun _ ended => Stage.noConfusion ended

/-- The entry that `get_next_file` gives is new, and the list goes on behind it. -/
theorem Counted.take (counted : Counted files progress state)
    (idle : progress thread = ⟨.idle, rounds⟩) {file : FileInfo} {rest : FileList}
    (taken : getNextFile state.list = (some (index, file), rest)) :
    files[index]? = some file ∧ index = state.list.currentIndex ∧
      Counted files (Function.update progress thread ⟨.taken index, rounds + 1⟩)
        { state with list := rest, handed := state.handed ++ [(thread, index)] } := by
  have uncounted := sum_update (fun p : Progress => p.stage.uncounted) progress thread
    ⟨.taken index, rounds + 1⟩
  have unfinished := sum_update (fun p : Progress => p.stage.unfinished) progress thread
    ⟨.taken index, rounds + 1⟩
  have pending := sum_update (fun p : Progress => p.stage.pending) progress thread
    ⟨.taken index, rounds + 1⟩
  rw [idle] at uncounted unfinished pending
  rw [show Stage.pending .idle = 0 from rfl, add_zero] at pending
  rw [getNextFile] at taken
  cases found : state.list.files[state.list.currentIndex]? with
  | none =>
      rw [found] at taken
      cases taken
  | some file' =>
      rw [found] at taken
      cases taken
      rw [counted.files_eq] at found
      have below := (List.getElem?_eq_some_iff.mp found).1
      refine ⟨found, rfl, ?_⟩
      refine
        { files_eq := counted.files_eq
          index_le := below
          handed := ?_
          rounds_le := ?_
          processed := ?_
          outcomes := ?_
          passed := ?_
          passed_handed := ?_
          inHand := ?_
          finished := ?_ }
      · rw [List.map_append, counted.handed, List.range_succ]
        rfl
      · intro other
        have bound := counted.rounds_le other
        by_cases same : other = thread
        · subst other
          rw [idle] at bound
          rw [Function.update_self]
          exact Nat.succ_le_succ bound
        · rw [Function.update_of_ne same]
          exact Nat.le_succ_of_le bound
      · have before := counted.processed
        simp only [Stage.uncounted] at before uncounted ⊢
        omega
      · have before := counted.outcomes
        simp only [Stage.unfinished] at before unfinished ⊢
        omega
      · rw [pending, ← add_assoc, counted.passed, Multiset.range_succ, add_comm]
        rfl
      · exact fun entry member =>
          List.mem_append_left _ (counted.passed_handed entry member)
      · intro other held inHand
        by_cases same : other = thread
        · subst other
          rw [Function.update_self] at inHand
          cases inHand
          exact List.mem_append_right _ (List.mem_singleton.mpr rfl)
        · rw [Function.update_of_ne same] at inHand
          exact List.mem_append_left _ (counted.inHand other held inHand)
      · intro other ended
        by_cases same : other = thread
        · subst other
          rw [Function.update_self] at ended
          cases ended
        · rw [Function.update_of_ne same] at ended
          have := counted.finished other ended
          omega

/-- A step of `thread` that leaves the list and its records alone. -/
theorem Counted.advance {after : WorkerState Thread State} {stage : Stage}
    (stage' : Stage) (counted : Counted files progress state)
    (here : progress thread = ⟨stage, rounds⟩)
    (list : after.list = state.list) (handed : after.handed = state.handed)
    (processed : after.filesProcessed + stage'.uncounted =
      state.filesProcessed + stage.uncounted)
    (outcomes : after.filesSynced + after.errors + stage'.unfinished +
        state.filesProcessed =
      state.filesSynced + state.errors + stage.unfinished + after.filesProcessed)
    (passed : (after.passed.map Prod.snd : Multiset Nat) + stage'.pending =
      (state.passed.map Prod.snd : Multiset Nat) + stage.pending)
    (passed_handed : ∀ entry ∈ after.passed, entry ∈ after.handed)
    (inHand : ∀ index, stage'.inHand = some index → stage.inHand = some index)
    (finished : stage' = .finished → state.list.currentIndex = files.length) :
    Counted files (Function.update progress thread ⟨stage', rounds⟩) after where
  files_eq := by rw [list, counted.files_eq]
  index_le := by rw [list]; exact counted.index_le
  handed := by rw [handed, list, counted.handed]
  rounds_le := by
    intro other
    rw [list]
    by_cases same : other = thread
    · subst other
      have bound := counted.rounds_le thread
      rw [here] at bound
      rw [Function.update_self]
      exact bound
    · rw [Function.update_of_ne same]
      exact counted.rounds_le other
  processed := by
    have sum := sum_update (fun p : Progress => p.stage.uncounted) progress thread
      ⟨stage', rounds⟩
    have before := counted.processed
    simp only [here] at sum
    rw [list]
    omega
  outcomes := by
    have sum := sum_update (fun p : Progress => p.stage.unfinished) progress thread
      ⟨stage', rounds⟩
    have before := counted.outcomes
    simp only [here] at sum
    omega
  passed := by
    have sum := sum_update (fun p : Progress => p.stage.pending) progress thread
      ⟨stage', rounds⟩
    simp only [here] at sum
    rw [list, ← counted.passed]
    exact exchange_sums passed sum
  passed_handed := passed_handed
  inHand := by
    intro other index held
    rw [handed]
    by_cases same : other = thread
    · subst other
      rw [Function.update_self] at held
      apply counted.inHand
      rw [here]
      exact inHand index held
    · rw [Function.update_of_ne same] at held
      exact counted.inHand other index held
  finished := by
    intro other ended
    rw [list]
    by_cases same : other = thread
    · subst other
      rw [Function.update_self] at ended
      exact finished ended
    · rw [Function.update_of_ne same] at ended
      exact counted.finished other ended

end Counted

/-! ## The invariant along a run -/

section Run

variable {System State : Type} {Response : System → Type} {threads : Nat}

/-- The logic of the workers: each knows where it stands itself. -/
def workerLogic (files : List FileInfo)
    (perform : (command : System) → State → Response command → State → Prop) :
    LocalLogic (Fin threads) (WorkerCommand System) (WorkerResponse Response)
      (WorkerState (Fin threads) State) (Fin threads → Progress) Progress where
  step := WorkerStep perform
  valid := Counted files
  localOf := fun thread progress => progress thread
  allowed := fun _ command _ => match command with
    | .outOfRounds => False
    | _ => True

variable {files : List FileInfo}
  {perform : (command : System) → State → Response command → State → Prop}
  {syncFile : SyncFile System Response} {dryRun : Bool} {thread : Fin threads}

theorem keeps_update (progress : Fin threads → Progress) (thread : Fin threads)
    (there : Progress) :
    (@workerLogic System State Response threads files perform).Keeps thread progress
      (Function.update progress thread there) :=
  fun _ different => Function.update_of_ne different _ _

theorem localOf_update (progress : Fin threads → Progress) (thread : Fin threads)
    (there : Progress) :
    (@workerLogic System State Response threads files perform).localOf thread
      (Function.update progress thread there) = there :=
  Function.update_self _ _ _

/-- What `sync_file` does leaves the list and the counters alone. -/
theorem liftSystem_safe {Result : Type} (program : Program System Response Result)
    (here : Progress) :
    (workerLogic files perform).Safe thread (fun _ there => there = here)
      (liftSystem program) here := by
  induction program with
  | done => exact rfl
  | call command next hypothesis =>
      refine ⟨trivial, fun progress state counted same response after stepped => ?_⟩
      cases stepped with
      | system performed =>
          refine ⟨progress, ?_, fun _ _ => rfl, ?_⟩
          · exact { counted with }
          · rw [same]
            exact hypothesis response

section Steps

variable {index rounds : Nat} {post : Unit → Progress → Prop}
  {rest : Unit → Worker Response Unit}

theorem countProcessed_safe
    (continued : (workerLogic files perform).Safe thread post (rest ())
      ⟨.counted index, rounds⟩) :
    (workerLogic files perform).Safe thread post (Worker.countProcessed >>= rest)
      ⟨.taken index, rounds⟩ := by
  apply LocalLogic.Safe.perform trivial
  intro progress state counted same _ after stepped
  cases stepped
  refine ⟨_, counted.advance (.counted index) same rfl rfl rfl ?_ rfl
    counted.passed_handed (fun _ held => held) Stage.noConfusion,
    keeps_update progress thread _, ?_⟩
  · simp only [Stage.unfinished]
    omega
  · rw [localOf_update]
    exact continued

theorem callSyncFile_safe
    (continued : (workerLogic files perform).Safe thread post (rest ())
      ⟨.syncing index, rounds⟩) :
    (workerLogic files perform).Safe thread post (Worker.callSyncFile index >>= rest)
      ⟨.counted index, rounds⟩ := by
  apply LocalLogic.Safe.perform trivial
  intro progress state counted same _ after stepped
  cases stepped
  refine ⟨_, counted.advance (.syncing index) same rfl rfl rfl rfl ?_ ?_
    (fun _ held => held) Stage.noConfusion, keeps_update progress thread _, ?_⟩
  · simp only [List.map_append, Stage.pending, ← Multiset.coe_add, add_zero]
    rfl
  · intro entry member
    rcases List.mem_append.mp member with before | new
    · exact counted.passed_handed entry before
    · rw [List.mem_singleton.mp new]
      apply counted.inHand
      rw [show progress thread = ⟨.counted index, rounds⟩ from same]
      rfl
  · rw [localOf_update]
    exact continued

theorem countSynced_safe
    (continued : (workerLogic files perform).Safe thread post (rest ()) ⟨.idle, rounds⟩) :
    (workerLogic files perform).Safe thread post (Worker.countSynced >>= rest)
      ⟨.syncing index, rounds⟩ := by
  apply LocalLogic.Safe.perform trivial
  intro progress state counted same _ after stepped
  cases stepped
  refine ⟨_, counted.advance .idle same rfl rfl rfl ?_ rfl counted.passed_handed
    (fun _ held => absurd held (by simp [Stage.inHand])) Stage.noConfusion,
    keeps_update progress thread _, ?_⟩
  · simp only [Stage.unfinished]
    omega
  · rw [localOf_update]
    exact continued

theorem countError_safe
    (continued : (workerLogic files perform).Safe thread post (rest ()) ⟨.idle, rounds⟩) :
    (workerLogic files perform).Safe thread post (Worker.countError >>= rest)
      ⟨.syncing index, rounds⟩ := by
  apply LocalLogic.Safe.perform trivial
  intro progress state counted same _ after stepped
  cases stepped
  refine ⟨_, counted.advance .idle same rfl rfl rfl ?_ rfl counted.passed_handed
    (fun _ held => absurd held (by simp [Stage.inHand])) Stage.noConfusion,
    keeps_update progress thread _, ?_⟩
  · simp only [Stage.unfinished]
    omega
  · rw [localOf_update]
    exact continued

/-- `get_next_file` ends the loop of a worker, or gives it an entry. -/
theorem getNextFile_safe {next : Option (Nat × FileInfo) → Worker Response Unit}
    (noFile : (workerLogic files perform).Safe thread post (next none)
      ⟨.finished, rounds⟩)
    (nextFile : ∀ index file, files[index]? = some file → rounds + 1 ≤ files.length →
      (workerLogic files perform).Safe thread post (next (some (index, file)))
        ⟨.taken index, rounds + 1⟩) :
    (workerLogic files perform).Safe thread post (Worker.getNextFile >>= next)
      ⟨.idle, rounds⟩ := by
  apply LocalLogic.Safe.perform trivial
  intro progress state counted same _ after stepped
  cases stepped with
  | noFile rest empty =>
      refine ⟨_, counted.advance .finished same (getNextFile_none empty).1 rfl rfl rfl rfl
        counted.passed_handed (fun _ held => absurd held (by simp [Stage.inHand]))
        (fun _ => ?_), keeps_update progress thread _, ?_⟩
      · have reached := (getNextFile_none empty).2
        rw [counted.files_eq] at reached
        exact Nat.le_antisymm counted.index_le reached
      · rw [localOf_update]
        exact noFile
  | nextFile rest taken =>
      rcases counted.take same taken with ⟨found, _, counted'⟩
      refine ⟨_, counted', keeps_update progress thread _, ?_⟩
      have bound := (counted'.rounds_le thread).trans counted'.index_le
      rw [Function.update_self] at bound
      rw [localOf_update]
      exact nextFile _ _ found bound

end Steps

theorem workerThread_safe (needs : ∀ file ∈ files, file.needsSync = true) :
    ∀ rounds taken, taken + rounds = files.length + 1 → taken ≤ files.length →
      (workerLogic files perform).Safe thread (fun _ there => there.stage = .finished)
        (workerThread syncFile dryRun rounds) ⟨.idle, taken⟩
  | 0, taken, total, bound => absurd total (by omega)
  | rounds + 1, taken, total, _ => by
      apply getNextFile_safe
      · exact rfl
      · intro index file found bound
        have needed := needs file (List.mem_of_getElem? found)
        apply countProcessed_safe
        simp only [needed, if_true]
        apply callSyncFile_safe
        apply LocalLogic.Safe.bind
        apply (liftSystem_safe _ _).mono
        rintro result _ rfl
        have rest := workerThread_safe needs rounds (taken + 1)
          (by omega) bound
        cases result with
        | true => exact countSynced_safe rest
        | false => exact countError_safe rest

end Run

section Claim

variable {System State : Type} {Response : System → Type}

/-- Every entry of the list goes to one worker and to one call of `sync_file`,
which the worker that was given the entry makes. -/
structure EachFileOnce (count : Nat) {threads : Nat}
    (pool : Pool (Fin threads) (WorkerCommand System) (WorkerResponse Response)
      (WorkerState (Fin threads) State) Unit) : Prop where
  handed_once : (pool.state.handed.map Prod.snd).Nodup
  passed_once : (pool.state.passed.map Prod.snd).Nodup
  passed_handed : ∀ entry ∈ pool.state.passed, entry ∈ pool.state.handed
  handed_listed : ∀ entry ∈ pool.state.handed, entry.2 < count
  outcomes_le : pool.state.filesSynced + pool.state.errors ≤ pool.state.filesProcessed
  processed_le : pool.state.filesProcessed ≤ pool.state.list.currentIndex
  index_le : pool.state.list.currentIndex ≤ count
  in_rounds : ∀ thread next, pool.programs thread ≠ .call .outOfRounds next
  complete : 0 < threads → (∀ thread, pool.programs thread = .done ()) →
    (pool.state.handed.map Prod.snd).Perm (List.range count) ∧
      (pool.state.passed.map Prod.snd).Perm (List.range count) ∧
      pool.state.filesProcessed = count ∧
      pool.state.filesSynced + pool.state.errors = count

theorem Counted.all_finished {files : List FileInfo} {threads : Nat}
    {progress : Fin threads → Progress} {state : WorkerState (Fin threads) State}
    (counted : Counted files progress state) (positive : 0 < threads)
    (finished : ∀ thread, (progress thread).stage = .finished) :
    state.list.currentIndex = files.length ∧
      (state.passed.map Prod.snd : Multiset Nat) = Multiset.range files.length ∧
      state.filesProcessed = files.length ∧
      state.filesSynced + state.errors = files.length := by
  have index := counted.finished ⟨0, positive⟩ (finished _)
  have processed := counted.processed
  have outcomes := counted.outcomes
  have passed := counted.passed
  simp only [finished, Stage.uncounted, Stage.unfinished, Stage.pending,
    Finset.sum_const_zero, add_zero] at processed outcomes passed
  rw [index] at processed passed
  exact ⟨index, passed, processed, outcomes.trans processed⟩

/-- Along every run of the workers, the list and the counters agree with where
the workers stand. -/
theorem workers_counted (files : List (Bytes × Bytes × Int)) (threads : Nat)
    (perform : (command : System) → State → Response command → State → Prop)
    (syncFile : SyncFile System Response) (dryRun : Bool) (system : State)
    {pool : Pool (Fin threads) (WorkerCommand System) (WorkerResponse Response)
      (WorkerState (Fin threads) State) Unit}
    (reached : Pool.Reachable (WorkerStep perform)
      (startWorkers (Fin threads) syncFile dryRun (fillFileList files) system) pool) :
    ∃ progress, Counted (fillFileList files).files progress pool.state ∧
      ∀ thread, (workerLogic (fillFileList files).files perform).Safe thread
        (fun _ there => there.stage = .finished) (pool.programs thread) (progress thread) := by
  rcases fillFileList_files files with ⟨filled, start⟩
  have needs : ∀ file ∈ (fillFileList files).files, file.needsSync = true := by
    intro file member
    rw [filled] at member
    rcases List.mem_map.mp member with ⟨_, _, rfl⟩
    rfl
  have startSafe : (workerLogic (fillFileList files).files perform).PoolSafe
      (fun _ _ there => there.stage = .finished)
      (startWorkers (Fin threads) syncFile dryRun (fillFileList files) system) :=
    ⟨_, counted_start _ start system,
      fun _ => workerThread_safe needs _ 0 (by omega) (by omega)⟩
  exact startSafe.reachable reached

theorem fillFileList_length (files : List (Bytes × Bytes × Int)) :
    (fillFileList files).files.length = files.length := by
  rw [(fillFileList_files files).1, List.length_map]

/-- When all the workers have returned, every entry was taken and counted. -/
theorem workers_finished {files : List FileInfo} {threads : Nat}
    {perform : (command : System) → State → Response command → State → Prop}
    {pool : Pool (Fin threads) (WorkerCommand System) (WorkerResponse Response)
      (WorkerState (Fin threads) State) Unit} {progress : Fin threads → Progress}
    (safe : ∀ thread, (workerLogic files perform).Safe thread
      (fun _ there => there.stage = .finished) (pool.programs thread) (progress thread))
    (returned : ∀ thread, pool.programs thread = .done ()) (thread : Fin threads) :
    (progress thread).stage = .finished := by
  have mine := safe thread
  rw [returned thread] at mine
  exact mine

end Claim

end Apue.Sync
