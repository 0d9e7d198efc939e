import Apue.Database.Concurrent

/-! # One process and its database

What holds of one process that makes a new database and then calls the library.
-/

namespace Apue.Database

open Apue.Foundation Ascii

/-! ## The calls leave the marks between them alone -/

def IsMark : Command → Prop
  | .invoke _ => True
  | .respond _ => True
  | _ => False

/-- A function that does not itself mark the begin or the end of a call. -/
structure Quiet {Result : Type} (function : Library Result) : Prop where
  avoids : ∀ db, (function db).Avoids IsMark

section Quiet

variable {Result Next : Type}

theorem quiet_bind {function : Library Result} {rest : Result → Library Next}
    (first : Quiet function) (second : ∀ result, Quiet (rest result)) :
    Quiet (function >>= rest) :=
  ⟨fun db => (first.avoids db).bind fun outcome => (second outcome.1).avoids outcome.2⟩

@[simp] theorem quiet_pure (result : Result) : Quiet (pure result) := ⟨fun _ => trivial⟩

@[simp] theorem quiet_get : Quiet get := ⟨fun _ => trivial⟩

@[simp] theorem quiet_modify (change : DB → DB) : Quiet (modify change) :=
  ⟨fun _ => trivial⟩

@[simp] theorem quiet_fail (failure : Failure) : Quiet (fail failure : Library Result) :=
  ⟨fun _ => ⟨id, fun never => nomatch never⟩⟩

theorem quiet_perform {command : Command} (unmarked : ¬ IsMark command) :
    Quiet (perform command) := ⟨fun _ => ⟨unmarked, fun _ => trivial⟩⟩

theorem quiet_ite {condition : Prop} [Decidable condition]
    {left right : Library Result} (first : Quiet left) (second : Quiet right) :
    Quiet (if condition then left else right) := by
  split
  · exact first
  · exact second

@[simp] theorem quiet_read (file : File) (offset count : Nat) :
    @Quiet Bytes (perform (.read file offset count)) := quiet_perform id

@[simp] theorem quiet_write (file : File) (offset : Nat) (text : Bytes) :
    @Quiet Unit (perform (.write file offset text)) := quiet_perform id

@[simp] theorem quiet_size (file : File) : @Quiet Nat (perform (.size file)) := quiet_perform id

@[simp] theorem quiet_lock (file : File) (kind : LockKind) (start length : Nat) :
    @Quiet Unit (perform (.lock file kind start length)) := quiet_perform id

@[simp] theorem quiet_unlock (file : File) (start length : Nat) :
    @Quiet Unit (perform (.unlock file start length)) := quiet_perform id

@[simp] theorem quiet_lseekIdx (offset : Int) : Quiet (lseekIdx offset) := by
  unfold lseekIdx
  repeat' first | intro _ | with_reducible apply quiet_bind | with_reducible apply quiet_ite | simp

@[simp] theorem quiet_lseekDat (offset : Int) : Quiet (lseekDat offset) := by
  unfold lseekDat
  repeat' first | intro _ | with_reducible apply quiet_bind | with_reducible apply quiet_ite | simp

@[simp] theorem quiet_readIdx (count : Nat) : Quiet (readIdx count) := by
  unfold readIdx
  repeat' first | intro _ | with_reducible apply quiet_bind | with_reducible apply quiet_ite | simp

@[simp] theorem quiet_readDat (count : Nat) : Quiet (readDat count) := by
  unfold readDat
  repeat' first | intro _ | with_reducible apply quiet_bind | with_reducible apply quiet_ite | simp

@[simp] theorem quiet_writeIdx (text : Bytes) : Quiet (writeIdx text) := by
  unfold writeIdx
  repeat' first | intro _ | with_reducible apply quiet_bind | with_reducible apply quiet_ite | simp

@[simp] theorem quiet_writeDat (text : Bytes) : Quiet (writeDat text) := by
  unfold writeDat
  repeat' first | intro _ | with_reducible apply quiet_bind | with_reducible apply quiet_ite | simp

@[simp] theorem quiet_dbReadptr (offset : Int) : Quiet (dbReadptr offset) := by
  unfold dbReadptr
  repeat' first | intro _ | with_reducible apply quiet_bind | with_reducible apply quiet_ite | simp

@[simp] theorem quiet_dbReaddat : Quiet dbReaddat := by
  unfold dbReaddat
  repeat' first | intro _ | with_reducible apply quiet_bind | with_reducible apply quiet_ite | simp

@[simp] theorem quiet_dbWriteptr (offset ptrval : Int) : Quiet (dbWriteptr offset ptrval) := by
  unfold dbWriteptr
  repeat' first | intro _ | with_reducible apply quiet_bind | with_reducible apply quiet_ite | simp

@[simp] theorem quiet_dbReadidx (offset : Int) : Quiet (dbReadidx offset) := by
  unfold dbReadidx
  repeat' first | intro _ | with_reducible apply quiet_bind | with_reducible apply quiet_ite |
    (simp; done) | split

@[simp] theorem quiet_findKey (key : Bytes) (bound : Nat) (offset : Int) :
    Quiet (findKey key bound offset) := by
  induction bound generalizing offset with
  | zero => exact quiet_fail _
  | succ bound hypothesis =>
      unfold findKey
      repeat' first | intro _ | with_reducible apply quiet_bind |
          with_reducible apply quiet_ite | exact hypothesis _ | simp

@[simp] theorem quiet_findSizes (keylen datlen bound : Nat) (saveoffset offset : Int) :
    Quiet (findSizes keylen datlen bound saveoffset offset) := by
  induction bound generalizing saveoffset offset with
  | zero => exact quiet_fail _
  | succ bound hypothesis =>
      unfold findSizes
      repeat' first | intro _ | with_reducible apply quiet_bind |
          with_reducible apply quiet_ite | exact hypothesis _ _ | simp

@[simp] theorem quiet_dbFindAndLock (key : Bytes) (writelock : Bool) :
    Quiet (dbFindAndLock key writelock) := by
  unfold dbFindAndLock
  repeat' first | intro _ | with_reducible apply quiet_bind | with_reducible apply quiet_ite | simp

@[simp] theorem quiet_dbWritedat (data : Bytes) (whence : Whence) :
    Quiet (dbWritedat data whence) := by
  unfold dbWritedat
  cases whence <;> repeat' first | intro _ | with_reducible apply quiet_bind |
      with_reducible apply quiet_ite | simp

@[simp] theorem quiet_dbWriteidx (key : Bytes) (whence : Whence) (ptrval : Int) :
    Quiet (dbWriteidx key whence ptrval) := by
  unfold dbWriteidx
  cases whence <;> repeat' first | intro _ | with_reducible apply quiet_bind |
      with_reducible apply quiet_ite | simp

@[simp] theorem quiet_dbDodelete : Quiet dbDodelete := by
  unfold dbDodelete
  repeat' first | intro _ | with_reducible apply quiet_bind | with_reducible apply quiet_ite | simp

@[simp] theorem quiet_dbFindfree (keylen datlen : Nat) : Quiet (dbFindfree keylen datlen) := by
  unfold dbFindfree
  repeat' first | intro _ | with_reducible apply quiet_bind | with_reducible apply quiet_ite | simp

@[simp] theorem quiet_storeAppend (key data : Bytes) (ptrval : Int) :
    Quiet (storeAppend key data ptrval) := by
  unfold storeAppend
  repeat' first | intro _ | with_reducible apply quiet_bind | with_reducible apply quiet_ite | simp

@[simp] theorem quiet_storeReuse (key data : Bytes) (ptrval : Int) :
    Quiet (storeReuse key data ptrval) := by
  unfold storeReuse
  repeat' first | intro _ | with_reducible apply quiet_bind | with_reducible apply quiet_ite | simp

@[simp] theorem quiet_storeAbsent (key data : Bytes) (flag : Int) :
    Quiet (storeAbsent key data flag) := by
  unfold storeAbsent
  repeat' first | intro _ | with_reducible apply quiet_bind | with_reducible apply quiet_ite | simp

@[simp] theorem quiet_storePresent (key data : Bytes) (flag : Int) :
    Quiet (storePresent key data flag) := by
  unfold storePresent
  repeat' first | intro _ | with_reducible apply quiet_bind | with_reducible apply quiet_ite | simp

@[simp] theorem quiet_dbFetch (key : Bytes) : Quiet (dbFetch key) := by
  unfold dbFetch
  repeat' first | intro _ | with_reducible apply quiet_bind | with_reducible apply quiet_ite | simp

@[simp] theorem quiet_dbDelete (key : Bytes) : Quiet (dbDelete key) := by
  unfold dbDelete
  repeat' first | intro _ | with_reducible apply quiet_bind | with_reducible apply quiet_ite | simp

@[simp] theorem quiet_dbStore (key data : Bytes) (flag : Int) : Quiet (dbStore key data flag) := by
  unfold dbStore
  repeat' first | intro _ | with_reducible apply quiet_bind | with_reducible apply quiet_ite | simp

theorem quiet_execute (call : Call) : Quiet call.execute := by
  cases call <;> exact quiet_bind (by simp) fun _ => quiet_pure _

end Quiet

/-! ## The run of a session -/

theorem dbOpen_run (idx dat : Bytes) :
    (dbOpen true true dbAlloc).run answer (stateWith idx dat) =
      .ok (((), openedDB), newState) := by
  have opened : ∃ state, (dbOpen true true dbAlloc).run answer (stateWith idx dat) =
      .ok (((), openedDB), state) ∧ state = newState := by
    refine ⟨_, rfl, ?_⟩
    simp only [setLocks, setFile, newState, stateWith, if_true]
    congr 1
    · funext file
      cases file with
      | idx =>
          simp only [emptyIndex, Function.update_self]
          generalize List.flatten _ ++ _ = text
          exact pwrite_end [] text
      | dat => rfl
    · funext process file byte
      cases file <;> simp [inRange]
  rcases opened with ⟨state, ran, rfl⟩
  exact ran

theorem runSession_eq (calls : List Call) (idx dat : Bytes) :
    runSession calls idx dat = (runCalls calls openedDB).run answer newState := by
  change (dbOpen true true dbAlloc >>= fun opened => runCalls calls opened.2).run answer
    (stateWith idx dat) = _
  rw [Program.run_bind, dbOpen_run]

theorem resting_of_idle {ghost : Ghost Unit}
    (idle : ghost.ledger.localOf () = atRest () .idle) : ghost.Resting :=
  fun _ => ⟨.idle, idle⟩

/-- A session ends well, or at what the files cannot hold. -/
theorem runCalls_run {calls : List Call} (sound : ∀ call ∈ calls, call.Sound) :
    (∃ (returns : List Return) (db : DB) (state : State Unit) (ghost : Ghost Unit),
      (runCalls calls openedDB).run answer newState = .ok ((returns, db), state) ∧
        returns.length = calls.length ∧ Valid ghost state ∧
        ghost.ledger.localOf () = atRest () .idle) ∨
    ∃ failure, (runCalls calls openedDB).run answer newState = .error failure ∧
      failure.isLimit = true := by
  have safe : LibrarySafe (fun failure => failure.isLimit = true) () (fun returns _ there => there = atRest () .idle ∧
      returns.length = calls.length) (runCalls calls) openedDB (atRest () .idle) :=
    runCalls_safe (fun _ _ _ _ => id) sound fun _ _ length => ⟨rfl, length⟩
  have here : (limitLogic Unit).localOf () newGhost = atRest () .idle :=
    newGhost_localOf ()
  rw [LibrarySafe, ← here] at safe
  rcases LocalLogic.Safe.run (fun _ _ _ _ => step_of_answer) safe newGhost_valid with
    ⟨⟨returns, db⟩, state, ghost, ran, valid, _, rests, length⟩ |
    ⟨failure, command, state, ghost, ran, _, _, allowed, answered⟩
  · exact Or.inl ⟨returns, db, state, ghost, ran, length, valid, rests.trans here⟩
  · refine Or.inr ⟨failure, ran, ?_⟩
    cases command with
    | exit stop =>
        cases answered
        exact allowed
    | _ => cases answered

theorem runCalls_append (first rest : List Call) :
    runCalls (first ++ rest) = do
      let before ← runCalls first
      let after ← runCalls rest
      return before ++ after := by
  induction first with
  | nil => simp [runCalls]
  | cons call first hypothesis =>
      rw [List.cons_append, runCalls, hypothesis]
      simp [runCalls]

/-- A session that fails keeps failing with more calls. -/
theorem runCalls_error {first rest : List Call} {failure : Failure} {state : State Unit}
    (failed : (runCalls first openedDB).run answer state = .error failure) :
    (runCalls (first ++ rest) openedDB).run answer state = .error failure := by
  rw [runCalls_append]
  change (runCalls first openedDB >>= _).run answer state = _
  rw [Program.run_bind, failed]

/-- After every call of a session that is not ended, the files are laid out well. -/
theorem layout_after_calls {calls : List Call} {idx dat : Bytes}
    {outcome : List Return × DB} {last : State Unit}
    (noSep : ∀ call ∈ calls, call.NoSeparator)
    (ran : runSession calls idx dat = .ok (outcome, last)) :
    ∀ earlier, earlier <+: calls → ∃ outcome state,
      runSession earlier idx dat = .ok (outcome, state) ∧ ∃ layout : Layout,
        layout.Describes (state.files .idx) (state.files .dat) := by
  rintro earlier ⟨later, rfl⟩
  rw [runSession_eq] at ran
  have sound : ∀ call ∈ earlier, call.Sound := fun call member =>
    (noSep call (List.mem_append_left _ member)).sound
  rcases runCalls_run sound with
    ⟨returns, db, state, ghost, ranEarlier, _, valid, idle⟩ | ⟨failure, failed, _⟩
  · refine ⟨(returns, db), state, ?_, valid.layout (resting_of_idle idle)⟩
    rw [runSession_eq, ranEarlier]
  · cases (runCalls_error failed).symm.trans ran

def storeAndDelete : List Call :=
  [.store ⟨[97], noNul_a⟩ ⟨[98], noNul_b⟩ DB_INSERT, .fetch ⟨[97], noNul_a⟩,
    .delete ⟨[97], noNul_a⟩]

theorem exists_of_isOk {Stop Result : Type} {run : Except Stop Result}
    (isOk : run.isOk = true) : ∃ result, run = .ok result := by
  cases run with
  | ok result => exact ⟨result, rfl⟩
  | error stop => cases isOk

theorem storeAndDelete_noSeparator : ∀ call ∈ storeAndDelete, call.NoSeparator := by
  simp [storeAndDelete, Call.NoSeparator, Call.key, SEP]

theorem storeAndDelete_ends : ∃ result, runSession storeAndDelete [] [] = .ok result :=
  exists_of_isOk (by decide +kernel)

theorem layout_after_calls_store_and_delete :
    ∃ outcome state, runSession storeAndDelete [] [] = .ok (outcome, state) ∧
      ∃ layout : Layout, layout.Describes (state.files .idx) (state.files .dat) := by
  rcases storeAndDelete_ends with ⟨⟨outcome, last⟩, ran⟩
  exact layout_after_calls storeAndDelete_noSeparator ran _ (List.prefix_refl _)

/-! ## What the calls return -/

theorem answer_history {command : Command} {state after : State Unit}
    {response : Response command} (unmarked : ¬ IsMark command)
    (answered : answer command state = .ok (response, after)) :
    after.history = state.history := by
  cases command with
  | invoke call => exact absurd trivial unmarked
  | respond result => exact absurd trivial unmarked
  | exit failure => cases answered
  | «open» file truncate =>
      cases answered
      cases truncate <;> rfl
  | _ => cases answered; rfl

def invoked (state : State Unit) (call : Call) : State Unit :=
  { state with history := state.history ++ [.invoke () call] }

def responded (state : State Unit) (result : Return) : State Unit :=
  { state with history := state.history ++ [.respond () result] }

/-- The history of a session tells its calls and what they returned. -/
theorem runCalls_history {calls : List Call} {db db' : DB} {state after : State Unit}
    {returns : List Return}
    (ran : (runCalls calls db).run answer state = .ok ((returns, db'), after)) :
    after.history = state.history ++ AtomicObject.sequential () calls returns := by
  induction calls generalizing db state returns with
  | nil =>
      cases ran
      exact (List.append_nil _).symm
  | cons call calls hypothesis =>
      have shape : runCalls (call :: calls) db = .call (.invoke call) fun _ =>
          call.execute db >>= fun outcome => .call (.respond outcome.1) fun _ =>
            runCalls calls outcome.2 >>= fun rest => .done (outcome.1 :: rest.1, rest.2) := rfl
      rw [shape] at ran
      change Program.run answer _ (invoked state call) = _ at ran
      rw [Program.run_bind] at ran
      cases executed : (call.execute db).run answer (invoked state call) with
      | error failure =>
          rw [executed] at ran
          cases ran
      | ok outcome =>
          rcases outcome with ⟨⟨result, between⟩, middle⟩
          rw [executed] at ran
          change Program.run answer _ (responded middle result) = _ at ran
          rw [Program.run_bind] at ran
          cases rested : (runCalls calls between).run answer (responded middle result) with
          | error failure =>
              rw [rested] at ran
              cases ran
          | ok outcome =>
              rw [rested] at ran
              cases ran
              have unmarked : middle.history = (invoked state call).history :=
                ((quiet_execute call).avoids db).run_keeps
                  (fun _ _ _ _ => answer_history) executed
              rw [hypothesis rested, responded, unmarked, invoked, List.append_assoc,
                List.append_assoc]
              rfl

/-- What a session comes to that is not ended. -/
theorem runSession_ends {calls : List Call} {idx dat : Bytes} {returns : List Return}
    {db : DB} {last : State Unit} (sound : ∀ call ∈ calls, call.Sound)
    (ran : runSession calls idx dat = .ok ((returns, db), last)) :
    returns = AtomicObject.results applyCall calls emptyTable ∧
      ∃ ghost, Valid ghost last ∧ ghost.ledger.localOf () = atRest () .idle ∧
        ghost.object.object = AtomicObject.finalObject applyCall calls emptyTable := by
  rw [runSession_eq] at ran
  rcases runCalls_run sound with
    ⟨returns', db', state, ghost, ran', length, valid, idle⟩ | ⟨failure, failed, _⟩
  · cases ran'.symm.trans ran
    have history := valid.history.trans (runCalls_history ran)
    rcases valid.runs.sequential length.symm history with ⟨results, reached⟩
    exact ⟨results, ghost, valid, idle, reached⟩
  · cases failed.symm.trans ran

/-- Every call returns what it returns on the map. -/
theorem returns_of_calls {calls : List Call} {idx dat : Bytes} {returns : List Return}
    {db : DB} {last : State Unit} (noSep : ∀ call ∈ calls, call.NoSeparator)
    (ran : runSession calls idx dat = .ok ((returns, db), last)) :
    returns = AtomicObject.results applyCall calls emptyTable :=
  (runSession_ends (fun call member => (noSep call member).sound) ran).1

theorem returns_of_calls_store_and_delete : ∃ outcome last,
    runSession storeAndDelete [] [] = .ok (outcome, last) ∧
      outcome.1 = AtomicObject.results applyCall storeAndDelete emptyTable := by
  rcases storeAndDelete_ends with ⟨⟨⟨returns, db⟩, last⟩, ran⟩
  exact ⟨_, _, ran, returns_of_calls storeAndDelete_noSeparator ran⟩

/-- The map as it would be without the check of the flag. -/
def applyCallUnchecked : Call → Table → Return × Table
  | .store key data flag, table =>
      if flag = DB_INSERT ∧ (table key.1).isSome then (.code 1, table)
      else if flag = DB_REPLACE ∧ (table key.1).isNone then (.code (-1), table)
      else (.code 0, Function.update table key.1 (some data.1))
  | call, table => applyCall call table

def storeWithoutFlag : List Call := [.store ⟨[97], noNul_a⟩ ⟨[98], noNul_b⟩ 0]

/-- A flag that is none of the three is refused. -/
theorem returns_of_calls_unchecked : ¬ ∀ (calls : List Call) (returns : List Return) (db : DB)
    (last : State Unit), (∀ call ∈ calls, call.NoSeparator) →
    runSession calls [] [] = .ok ((returns, db), last) →
    returns = AtomicObject.results applyCallUnchecked calls emptyTable := by
  intro promised
  have refused : (runSession storeWithoutFlag [] []).toOption.map (·.1.1) =
      some [.code (-1)] := by decide +kernel
  cases ran : runSession storeWithoutFlag [] [] with
  | error failure =>
      rw [ran] at refused
      cases refused
  | ok result =>
      rcases result with ⟨⟨returns, db⟩, last⟩
      rw [ran] at refused
      have equal : returns = [.code (-1)] := Option.some.inj refused
      have promisedHere := promised _ _ _ _
        (by simp [storeWithoutFlag, Call.NoSeparator, Call.key, SEP]) ran
      rw [equal] at promisedHere
      exact absurd promisedHere (by decide)

end Apue.Database
