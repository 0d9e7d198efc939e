import Apue.Sync.PlainPrograms

/-! # What `print_stats` prints

`sync_file` ends in three ways and returns one of two values, of which the
threads keep two counts; `print_stats` works out the third number.
-/

namespace Apue.Sync

open Apue.Foundation

/-- The numbers that `print_stats` prints. -/
structure Printed where
  total : Int
  synced : Int
  skipped : Int
  errors : Int

def printStats (totalFiles filesSynced errors : Int) : Printed where
  total := totalFiles
  synced := filesSynced
  skipped := totalFiles - filesSynced - errors
  errors := errors

/-- The numbers are those of the files that were copied, that were the same
already, and that failed, and they add up. -/
structure Printed.Truthful (printed : Printed) (count : Nat) (outcomes : List Outcome) :
    Prop where
  each : outcomes.length = count
  total : printed.total = count
  synced : printed.synced = outcomes.count .copied
  skipped : printed.skipped = outcomes.count .same
  errors : printed.errors = outcomes.count .failed
  adds : printed.synced + printed.skipped + printed.errors = printed.total

/-- Every call has every answer; what is kept is how the calls of `sync_file`
ended. -/
inductive AnyAnswer : (call : SysCall) → List Outcome → SysResponse call → List Outcome → Prop
  | finished (outcome : Outcome) (outcomes : List Outcome) :
      AnyAnswer (.finished outcome) outcomes () (outcomes ++ [outcome])
  | other {call : SysCall} (outcomes : List Outcome) (response : SysResponse call)
      (different : ∀ outcome, call ≠ .finished outcome) :
      AnyAnswer call outcomes response outcomes

/-! ## How the calls of `sync_file` are counted -/

section Counting

variable {threads : Nat}

/-- What a thread has to count: it has seen the end of a call of `sync_file` and
not counted it. -/
def Owed : Option Outcome → Bool → Nat
  | some outcome, returned => if outcome.returned = returned then 1 else 0
  | none, _ => 0

/-- The counters and what the threads still have to count agree with the calls
that ended, and none of them ended as one of a dry run. -/
structure Tallied (owed : Fin threads → Option Outcome)
    (state : WorkerState (Fin threads) (List Outcome)) : Prop where
  synced : state.filesSynced + ∑ thread, Owed (owed thread) true =
    state.system.countP fun outcome => outcome.returned
  errors : state.errors + ∑ thread, Owed (owed thread) false =
    state.system.countP fun outcome => !outcome.returned
  noDryRun : Outcome.dryRun ∉ state.system

def tallyLogic : LocalLogic (Fin threads) (WorkerCommand SysCall) (WorkerResponse SysResponse)
    (WorkerState (Fin threads) (List Outcome)) (Fin threads → Option Outcome)
    (Option Outcome) where
  step := WorkerStep AnyAnswer
  valid := Tallied
  localOf := fun thread owed => owed thread
  allowed := fun _ _ _ => True

/-! ### The threads -/

variable {thread : Fin threads} {owed : Fin threads → Option Outcome}
  {Result : Type} {post : Result → Prop}
  {state after : WorkerState (Fin threads) (List Outcome)} {here : Option Outcome}

theorem Tallied.move (there : Option Outcome) (tallied : Tallied owed state)
    (same : owed thread = here)
    (synced : after.filesSynced + Owed there true +
        state.system.countP (fun outcome => outcome.returned) =
      state.filesSynced + Owed here true + after.system.countP fun outcome => outcome.returned)
    (errors : after.errors + Owed there false +
        state.system.countP (fun outcome => !outcome.returned) =
      state.errors + Owed here false + after.system.countP fun outcome => !outcome.returned)
    (noDryRun : Outcome.dryRun ∉ after.system) :
    Tallied (Function.update owed thread there) after where
  synced := by
    have sum := sum_update (fun outcome => Owed outcome true) owed thread there
    have before := tallied.synced
    rw [same] at sum
    omega
  errors := by
    have sum := sum_update (fun outcome => Owed outcome false) owed thread there
    have before := tallied.errors
    rw [same] at sum
    omega
  noDryRun := noDryRun

/-- A step that neither ends a call of `sync_file` nor counts one. -/
theorem Tallied.unchanged (tallied : Tallied owed state)
    (synced : after.filesSynced = state.filesSynced) (errors : after.errors = state.errors)
    (system : after.system = state.system) : Tallied owed after where
  synced := by rw [synced, system, tallied.synced]
  errors := by rw [errors, system, tallied.errors]
  noDryRun := by rw [system]; exact tallied.noDryRun

theorem liftSystem_tallied {program : Sys Result} (plain : PlainProgram post program) :
    tallyLogic.Safe thread (fun result there => there = none ∧ post result)
      (liftSystem program) none := by
  induction program with
  | done result => exact ⟨rfl, plain⟩
  | call call next hypothesis =>
      refine ⟨trivial, fun owed state tallied same response after stepped => ?_⟩
      cases stepped with
      | system performed =>
          cases performed with
          | finished outcome _ => exact plain.1.elim
          | other _ _ _ =>
              refine ⟨owed, tallied.unchanged rfl rfl rfl, fun _ _ => rfl, ?_⟩
              rw [same]
              exact hypothesis response (plain.2 response () trivial)

theorem finished_tallied {rest : Unit → Worker SysResponse Unit} {outcome : Outcome}
    {last : Unit → Option Outcome → Prop} (noDryRun : outcome ≠ .dryRun)
    (continued : tallyLogic.Safe thread last (rest ()) (some outcome)) :
    tallyLogic.Safe thread last (liftSystem (Sys.finished outcome) >>= rest) none := by
  refine ⟨trivial, fun owed state tallied same response after stepped => ?_⟩
  cases stepped with
  | system performed =>
      cases performed with
      | finished _ _ =>
          refine ⟨_, tallied.move (some outcome) same ?_ ?_ ?_, fun other different =>
            Function.update_of_ne different _ _, ?_⟩
          · simp only [Owed, List.countP_append, List.countP_singleton]
            cases outcome.returned with
            | true => simp only [if_true]; omega
            | false => simp
          · simp only [Owed, List.countP_append, List.countP_singleton]
            cases outcome.returned with
            | true => simp
            | false => simp only [Bool.not_false, if_true]; omega
          · rw [List.mem_append, List.mem_singleton, not_or]
            exact ⟨tallied.noDryRun, fun same => noDryRun same.symm⟩
          · rw [show tallyLogic.localOf thread (Function.update owed thread (some outcome)) =
              some outcome from Function.update_self _ _ _]
            exact continued
      | other _ _ different => exact absurd rfl (different outcome)

/-- The branch behind `sync_file` counts the call that ended. -/
theorem count_tallied {rest : Unit → Worker SysResponse Unit} {outcome : Outcome}
    {last : Unit → Option Outcome → Prop}
    (continued : tallyLogic.Safe thread last (rest ()) none) :
    tallyLogic.Safe thread last
      (if outcome.returned then Worker.countSynced >>= rest else Worker.countError >>= rest)
      (some outcome) := by
  cases returned : outcome.returned with
  | true =>
      refine ⟨trivial, fun owed state tallied same response after stepped => ?_⟩
      cases stepped
      refine ⟨_, tallied.move none same ?_ ?_ tallied.noDryRun, fun other different =>
        Function.update_of_ne different _ _, ?_⟩
      · simp only [Owed, returned, if_true]
      · simp [Owed, returned]
      · rw [show tallyLogic.localOf thread (Function.update owed thread none) = none from
          Function.update_self _ _ _]
        exact continued
  | false =>
      refine ⟨trivial, fun owed state tallied same response after stepped => ?_⟩
      cases stepped
      refine ⟨_, tallied.move none same ?_ ?_ tallied.noDryRun, fun other different =>
        Function.update_of_ne different _ _, ?_⟩
      · simp [Owed, returned]
      · simp only [Owed, returned, if_true]
      · rw [show tallyLogic.localOf thread (Function.update owed thread none) = none from
          Function.update_self _ _ _]
        exact continued

/-- A step of `worker_thread` that is not counted here. -/
theorem unchanged_tallied {command : WorkerCommand SysCall}
    {rest : WorkerResponse SysResponse command → Worker SysResponse Unit}
    {last : Unit → Option Outcome → Prop}
    (keeps : ∀ (state : WorkerState (Fin threads) (List Outcome)) response after,
      WorkerStep AnyAnswer thread command state response after →
        after.filesSynced = state.filesSynced ∧ after.errors = state.errors ∧
          after.system = state.system)
    (continued : ∀ response, tallyLogic.Safe thread last (rest response) none) :
    tallyLogic.Safe thread last (Program.perform command >>= rest) none := by
  refine ⟨trivial, fun owed state tallied same response after stepped => ?_⟩
  rcases keeps state response after stepped with ⟨synced, errors, system⟩
  refine ⟨owed, tallied.unchanged synced errors system, fun _ _ => rfl, ?_⟩
  rw [same]
  exact continued response

theorem syncFile_tallied (sourceFile targetFile : Bytes)
    {rest : Unit → Worker SysResponse Unit} {last : Unit → Option Outcome → Prop}
    (continued : tallyLogic.Safe thread last (rest ()) none) :
    tallyLogic.Safe thread last
      (liftSystem (syncFile sourceFile targetFile false) >>= fun result =>
        if result then Worker.countSynced >>= rest else Worker.countError >>= rest) none := by
  rw [syncFile, liftSystem_bind, bind_assoc]
  apply LocalLogic.Safe.bind
  apply (liftSystem_tallied (plain_syncFileOutcome sourceFile targetFile)).mono
  rintro outcome _ ⟨rfl, noDryRun⟩
  rw [liftSystem_bind, bind_assoc]
  exact finished_tallied noDryRun (count_tallied continued)

theorem workerThread_tallied (rounds : Nat) :
    tallyLogic.Safe thread (fun _ there => there = none)
      (workerThread syncFile false rounds) none := by
  induction rounds with
  | zero => exact ⟨trivial, fun _ _ _ _ never => nomatch never⟩
  | succ rounds hypothesis =>
      apply unchanged_tallied
      · intro state response after stepped
        cases stepped with
        | noFile rest empty => exact ⟨rfl, rfl, rfl⟩
        | nextFile rest taken => exact ⟨rfl, rfl, rfl⟩
      intro next
      cases next with
      | none => exact rfl
      | some next =>
          rcases next with ⟨index, file⟩
          apply unchanged_tallied
          · intro state response after stepped
            cases stepped
            exact ⟨rfl, rfl, rfl⟩
          intro _
          dsimp only
          split
          · apply unchanged_tallied
            · intro state response after stepped
              cases stepped
              exact ⟨rfl, rfl, rfl⟩
            intro _
            exact syncFile_tallied _ _ hypothesis
          · exact hypothesis

end Counting

/-! ## The report -/

theorem count_eq_of_returned {outcomes : List Outcome} (noDryRun : .dryRun ∉ outcomes) :
    outcomes.countP (fun outcome => outcome.returned) =
      outcomes.count .copied + outcomes.count .same ∧
    outcomes.countP (fun outcome => !outcome.returned) = outcomes.count .failed := by
  induction outcomes with
  | nil => exact ⟨rfl, rfl⟩
  | cons outcome outcomes hypothesis =>
      rw [List.mem_cons, not_or] at noDryRun
      rcases hypothesis noDryRun.2 with ⟨returned, failed⟩
      simp only [List.countP_cons, List.count_cons, returned, failed]
      cases outcome with
      | dryRun => exact absurd rfl noDryRun.1
      | same => simp [Outcome.returned]; omega
      | copied => simp [Outcome.returned]; omega
      | failed => simp [Outcome.returned]

variable {threads : Nat}

theorem tallied_start (list : FileList) :
    tallyLogic.PoolSafe (fun _ _ there => there = none)
      (startWorkers (Fin threads) syncFile false list []) := by
  refine ⟨fun _ => none, ?_, fun _ => workerThread_tallied _⟩
  exact { synced := by simp [startWorkers, Owed]
          errors := by simp [startWorkers, Owed]
          noDryRun := List.not_mem_nil }

/-- When all the workers have returned, the counters tell the calls that returned
1 from those that returned 0. -/
theorem tallied_finished {list : FileList}
    {pool : Pool (Fin threads) (WorkerCommand SysCall) (WorkerResponse SysResponse)
      (WorkerState (Fin threads) (List Outcome)) Unit}
    (reached : Pool.Reachable (WorkerStep AnyAnswer)
      (startWorkers (Fin threads) syncFile false list []) pool)
    (joined : ∀ thread, pool.programs thread = .done ()) :
    pool.state.filesSynced =
        pool.state.system.count .copied + pool.state.system.count .same ∧
      pool.state.errors = pool.state.system.count .failed ∧
      pool.state.system.length = pool.state.filesSynced + pool.state.errors := by
  rcases (tallied_start list).reachable reached with ⟨owed, tallied, safe⟩
  have tallied : Tallied owed pool.state := tallied
  have none : ∀ thread, owed thread = none := by
    intro thread
    have mine := safe thread
    rw [joined thread] at mine
    exact mine
  have synced := tallied.synced
  have errors := tallied.errors
  rcases count_eq_of_returned tallied.noDryRun with ⟨returned, failed⟩
  simp only [none, Owed, Finset.sum_const_zero, add_zero] at synced errors
  have each := List.length_eq_countP_add_countP (fun outcome => outcome.returned)
    (l := pool.state.system)
  simp only [Bool.not_eq_true, Bool.decide_eq_false] at each
  rw [← synced, ← errors] at each
  exact ⟨synced.trans returned, errors.trans failed, each⟩

/-- For every list that `add_file_to_list` fills, every number of workers, every
order of their steps and whatever the calls of `sync_file` come to: what is
printed is right when no file was the same already, and only then. -/
theorem report_truthful_iff (files : List (Bytes × Bytes × Int)) (threads : Nat)
    (positive : 0 < threads)
    {pool : Pool (Fin threads) (WorkerCommand SysCall) (WorkerResponse SysResponse)
      (WorkerState (Fin threads) (List Outcome)) Unit}
    (reached : Pool.Reachable (WorkerStep AnyAnswer)
      (startWorkers (Fin threads) syncFile false (fillFileList files) []) pool)
    (joined : ∀ thread, pool.programs thread = .done ()) :
    (printStats pool.state.list.files.length pool.state.filesSynced pool.state.errors).Truthful
        files.length pool.state.system ↔
      Outcome.same ∉ pool.state.system := by
  rcases tallied_finished reached joined with ⟨synced, errors, each⟩
  rcases workers_counted files threads AnyAnswer syncFile false [] reached with
    ⟨progress, counted, safe⟩
  rcases counted.all_finished positive (workers_finished safe joined) with ⟨_, _, _, counts⟩
  have total : pool.state.list.files.length = files.length := by
    rw [counted.files_eq, fillFileList_length]
  rw [fillFileList_length] at counts
  rw [← List.count_eq_zero]
  constructor
  · intro truthful
    have copied := truthful.synced
    simp only [printStats] at copied
    omega
  · intro none
    exact
      { each := by omega
        total := by simp only [printStats]; omega
        synced := by simp only [printStats]; omega
        skipped := by simp only [printStats]; omega
        errors := by simp only [printStats]; omega
        adds := by simp only [printStats]; omega }

/-- An answer that does not end a call of `sync_file`. -/
theorem systemAnswer {threads : Nat} {thread : Fin threads} (call : SysCall)
    (response : SysResponse call) (different : ∀ outcome, call ≠ .finished outcome)
    {state : WorkerState (Fin threads) (List Outcome)} :
    WorkerStep AnyAnswer thread (.system call) state response state :=
  .system (.other state.system response different)

/-- One worker and one file, which it copies. -/
theorem report_truthful_iff_copied :
    ∃ pool : Pool (Fin 1) (WorkerCommand SysCall) (WorkerResponse SysResponse)
        (WorkerState (Fin 1) (List Outcome)) Unit,
      ((printStats pool.state.list.files.length pool.state.filesSynced
          pool.state.errors).Truthful 1 pool.state.system ↔
        Outcome.same ∉ pool.state.system) ∧ pool.state.system = [.copied] := by
  refine ⟨_, report_truthful_iff [([97], [98], 3)] 1 Nat.one_pos
    (.head (.take 0 rfl (.nextFile _ rfl)) <| .head (.take 0 rfl .countProcessed) <|
      .head (.take 0 rfl (.callSyncFile 0)) <|
      .head (.take 0 rfl (systemAnswer (.access [98]) false
        fun _ => SysCall.noConfusion)) <|
      .head (.take 0 rfl (systemAnswer (.openRead [97]) (some ⟨3, [], 0⟩ : Option Descriptor)
        fun _ => SysCall.noConfusion)) <|
      .head (.take 0 rfl (systemAnswer (.openWrite [98]) (some ⟨4, [], 0⟩ : Option Descriptor)
        fun _ => SysCall.noConfusion)) <|
      .head (.take 0 rfl (systemAnswer (.read ⟨3, [], 0⟩ 0 BUFFER_SIZE) (some [] : Option Bytes)
        fun _ => SysCall.noConfusion)) <|
      .head (.take 0 rfl (systemAnswer (.fstat ⟨3, [], 0⟩) (none : Option Stat)
        fun _ => SysCall.noConfusion)) <|
      .head (.take 0 rfl (systemAnswer (.close ⟨3, [], 0⟩) ()
        fun _ => SysCall.noConfusion)) <|
      .head (.take 0 rfl (.system (.finished .copied _))) <|
      .head (.take 0 rfl .countSynced) <| .head (.take 0 rfl (.noFile _ rfl)) .refl)
    (Fin.forall_fin_one.mpr rfl), rfl⟩

/-- One worker and one file, which is the same already: it is printed as
synchronised, and nothing as skipped. -/
theorem report_not_truthful :
    ∃ pool : Pool (Fin 1) (WorkerCommand SysCall) (WorkerResponse SysResponse)
        (WorkerState (Fin 1) (List Outcome)) Unit,
      Pool.Reachable (WorkerStep AnyAnswer)
          (startWorkers (Fin 1) syncFile false (fillFileList [([97], [98], 3)]) []) pool ∧
        (∀ thread, pool.programs thread = .done ()) ∧ pool.state.system = [.same] ∧
        (printStats pool.state.list.files.length pool.state.filesSynced pool.state.errors).synced
          = 1 ∧
        ¬ (printStats pool.state.list.files.length pool.state.filesSynced
          pool.state.errors).Truthful 1 pool.state.system := by
  refine ⟨_, .head (.take 0 rfl (.nextFile _ rfl)) <| .head (.take 0 rfl .countProcessed) <|
      .head (.take 0 rfl (.callSyncFile 0)) <|
      .head (.take 0 rfl (systemAnswer (.access [98]) true fun _ => SysCall.noConfusion)) <|
      .head (.take 0 rfl (systemAnswer (.stat [97]) (some ⟨false, 3, 7, 420⟩ : Option Stat)
        fun _ => SysCall.noConfusion)) <|
      .head (.take 0 rfl (systemAnswer (.stat [98]) (some ⟨false, 3, 7, 420⟩ : Option Stat)
        fun _ => SysCall.noConfusion)) <|
      .head (.take 0 rfl (systemAnswer (.stat [97]) (some ⟨false, 3, 7, 420⟩ : Option Stat)
        fun _ => SysCall.noConfusion)) <|
      .head (.take 0 rfl (systemAnswer (.stat [98]) (some ⟨false, 3, 7, 420⟩ : Option Stat)
        fun _ => SysCall.noConfusion)) <|
      .head (.take 0 rfl (.system (.finished .same _))) <|
      .head (.take 0 rfl .countSynced) <| .head (.take 0 rfl (.noFile _ rfl)) .refl,
    Fin.forall_fin_one.mpr rfl, rfl, rfl, ?_⟩
  intro truthful
  exact absurd truthful.synced (by decide)

end Apue.Sync
