import Apue.Database.Layout

/-! # Processes that share a database

What holds of any number of processes after any interleaving of their system
calls.
-/

namespace Apue.Database

open Apue.Foundation Ascii

section

variable {Process : Type} [DecidableEq Process]

/-! ## A new database -/

def noPointer : Pointer := ⟨0, Nat.zero_le _⟩

def newDisk : Disk where
  idx := List.replicate (NHASH_DEF + 1) (.head noPointer) ++ [.newline]
  dat := []

def newObject : AtomicObject Process Table Call Return := AtomicObject.start emptyTable

theorem newDisk_indexFile : newDisk.indexFile = emptyIndex := by
  rw [newDisk, Disk.indexFile, encodeAll_append, emptyIndex]
  simp only [encodeAll, List.flatMap_replicate, List.flatMap_singleton]
  rfl

theorem newDisk_heads (count : Nat) :
    (encodeAll IndexItem.encode (List.replicate count (.head noPointer))).length =
      count * PTR_SZ := by
  induction count with
  | zero => rfl
  | succ count hypothesis =>
      rw [List.replicate_succ, encodeAll_cons, List.length_append, hypothesis, IndexItem.encode,
        encodePointer_length]
      ring

theorem newDisk_length : newDisk.indexFile.length = recordsOffset := by
  rw [Disk.indexFile, newDisk, encodeAll_append, List.length_append, newDisk_heads]
  rfl

theorem newDisk_item_field {field : Nat} (inside : field < NHASH_DEF + 1) :
    newDisk.item (field * PTR_SZ) = some (.head noPointer) := by
  have split : newDisk.idx = List.replicate field (.head noPointer) ++ .head noPointer ::
      (List.replicate (NHASH_DEF - field) (.head noPointer) ++ [.newline]) := by
    have count : NHASH_DEF + 1 = field + (1 + (NHASH_DEF - field)) := by omega
    rw [newDisk, count, List.replicate_add, List.replicate_add, List.append_assoc,
      List.append_assoc]
    rfl
  rw [Disk.item, split, ← newDisk_heads]
  exact itemAt_split IndexItem.encode_nonempty _ _ _

theorem itemAt_heads {count offset : Nat} {item : IndexItem}
    (found : itemAt IndexItem.encode (List.replicate count (.head noPointer)) offset =
      some item) :
    ∃ field < count, offset = field * PTR_SZ ∧ item = .head noPointer := by
  induction count generalizing offset with
  | zero => cases found
  | succ count hypothesis =>
      rw [List.replicate_succ, itemAt] at found
      by_cases here : offset = 0
      · rw [if_pos here] at found
        cases found
        exact ⟨0, Nat.succ_pos _, by rw [here, Nat.zero_mul], rfl⟩
      · have size : (IndexItem.head noPointer).encode.length = PTR_SZ :=
          encodePointer_length _
        rw [if_neg here, size, Option.ite_none_right_eq_some] at found
        rcases hypothesis found.2 with ⟨field, inside, equal, isHead⟩
        refine ⟨field + 1, Nat.succ_lt_succ inside, ?_, isHead⟩
        rw [Nat.add_mul, Nat.one_mul, ← equal]
        omega

theorem newDisk_item {offset : Nat} {item : IndexItem}
    (found : newDisk.item offset = some item) :
    (∃ field < NHASH_DEF + 1, offset = field * PTR_SZ ∧ item = .head noPointer) ∨
      item = .newline := by
  rw [Disk.item, newDisk, itemAt_append IndexItem.encode_nonempty] at found
  split at found
  · exact Or.inl (itemAt_heads found)
  · exact Or.inr (List.mem_singleton.mp (mem_of_itemAt found))

theorem lockOf_field {field : Nat} (inside : field < NHASH_DEF + 1) :
    ∃ name : LockName, lockOf .idx (field * PTR_SZ) = some name ∧
      name.start = field * PTR_SZ ∧ name.rank < LockName.idxEnd.rank := by
  have locks : ∀ name : LockName, name.file = .idx → name.start = field * PTR_SZ →
      lockOf .idx (field * PTR_SZ) = some name := by
    intro name file start
    rw [← start, LockName.lockOf_eq_some]
    exact ⟨file.symm, name.inRange_start⟩
  cases field with
  | zero => exact ⟨.free, locks .free rfl (Nat.zero_mul _).symm, (Nat.zero_mul _).symm, by decide⟩
  | succ field =>
      have start : headOffset ⟨field, Nat.lt_of_succ_lt_succ inside⟩ = (field + 1) * PTR_SZ := by
        rw [headOffset, Nat.add_mul, Nat.one_mul]
        rfl
      exact ⟨.chain _, locks (.chain _) rfl start, start, Nat.succ_pos _⟩

/-- The owners of the cells of a new database. -/
noncomputable def newOwner : Cell Process → Owner Process LockName
  | .pointer offset => .lock ((lockOf .idx offset).getD .free)
  | .record _ => .lock .free
  | .extent _ => .lock .free
  | .idxSize => .lock .idxEnd
  | .datSize => .lock .datEnd
  | .table chain => .lock (.chain chain)
  | .status process => .thread process

noncomputable def newGhost : Ghost Process where
  ledger :=
    { contents := fun cell =>
        (cellValue newDisk newObject cell).map fun value => (newOwner cell, value)
      held := fun _ _ => none }
  disk := newDisk
  object := newObject
  actions := []

theorem newGhost_part {owner : Owner Process LockName} {cell : Cell Process}
    {value : Value cell} :
    (newGhost : Ghost Process).ledger.part owner cell = some value ↔
      newOwner cell = owner ∧ cellValue newDisk newObject cell = some value := by
  rw [Ledger.part_eq_some, newGhost, Option.map_eq_some_iff]
  constructor
  · rintro ⟨stored, found, equal⟩
    cases equal
    exact ⟨rfl, found⟩
  · rintro ⟨rfl, found⟩
    exact ⟨value, found, rfl⟩

theorem newGhost_localOf (process : Process) :
    (newGhost : Ghost Process).ledger.localOf process = atRest process .idle := by
  apply Holdings.ext
  · rfl
  · funext share
    cases share with
    | lock name => rfl
    | own =>
        funext cell
        apply Option.ext
        intro value
        change (newGhost : Ghost Process).ledger.part (.thread process) cell = some value ↔
          onlyStatus process .idle cell = some value
        rw [newGhost_part]
        by_cases isStatus : cell = .status process
        · subst isStatus
          rw [onlyStatus_same]
          exact ⟨And.right, fun found => ⟨rfl, found⟩⟩
        · rw [onlyStatus_of_ne _ isStatus]
          constructor
          · rintro ⟨owned, _⟩
            cases cell with
            | status other =>
                cases owned
                exact absurd rfl isStatus
            | _ => cases owned
          · intro found
            cases found

theorem newGhost_head (name : LockName) (isFile : name.file = .idx)
    (isField : ∃ field, field < NHASH_DEF + 1 ∧ name.start = field * PTR_SZ) :
    (newGhost : Ghost Process).ledger.part (.lock name) (.pointer name.start) = some 0 := by
  rcases isField with ⟨field, inside, start⟩
  rw [newGhost_part]
  constructor
  · have locked : lockOf .idx name.start = some name :=
      LockName.lockOf_eq_some.mpr ⟨isFile.symm, name.inRange_start⟩
    rw [newOwner, locked]
    rfl
  · rw [start, cellValue, newDisk_item_field inside]
    rfl

/-- A lock of a new database owns nothing but the pointer field that it locks. -/
theorem newGhost_only {name : LockName} {cell : Cell Process}
    (holds : (newGhost : Ghost Process).ledger.part (.lock name) cell ≠ none) :
    (cell = .pointer name.start ∧ name.rank < LockName.idxEnd.rank) ∨
      (∃ chain, name = .chain chain ∧ cell = .table chain) ∨ (name = .idxEnd ∧ cell = .idxSize) ∨
      (name = .datEnd ∧ cell = .datSize) := by
  rcases Option.ne_none_iff_exists'.mp holds with ⟨value, found⟩
  rcases newGhost_part.mp found with ⟨owned, stored⟩
  cases cell with
  | pointer offset =>
      rcases item_of_pointer stored with ⟨item, found, linked⟩
      rcases newDisk_item found with ⟨field, inside, rfl, _⟩ | rfl
      · rcases lockOf_field inside with ⟨locked, isLock, start, low⟩
        rw [newOwner, isLock] at owned
        cases owned
        exact Or.inl ⟨congrArg Cell.pointer start.symm, low⟩
      · cases linked
  | record offset =>
      rcases item_of_record stored with ⟨pointer, item⟩
      rcases newDisk_item item with ⟨_, _, _, isHead⟩ | isNewline
      · cases isHead
      · cases isNewline
  | extent offset => cases stored
  | idxSize =>
      cases owned
      exact Or.inr (Or.inr (Or.inl ⟨rfl, rfl⟩))
  | datSize =>
      cases owned
      exact Or.inr (Or.inr (Or.inr ⟨rfl, rfl⟩))
  | table chain =>
      cases owned
      exact Or.inr (Or.inl ⟨chain, rfl, rfl⟩)
  | status process => cases owned

theorem emptyList (name : LockName) (isFile : name.file = .idx)
    (isField : ∃ field, field < NHASH_DEF + 1 ∧ name.start = field * PTR_SZ)
    {more : Option (Cell Process)}
    (only : ∀ cell, (newGhost : Ghost Process).ledger.part (.lock name) cell ≠ none →
      cell = .pointer name.start ∨ more = some cell) :
    ListPart name.start [] more ((newGhost : Ghost Process).ledger.part (.lock name)) where
  head_le := by
    rcases isField with ⟨field, inside, start⟩
    rw [start]
    exact Nat.mul_le_mul_right _ (Nat.le_of_lt inside)
  linked := newGhost_head name isFile isField
  record := fun _ member => nomatch member
  extent := fun _ member => nomatch member
  offsets := List.nodup_nil
  datoffs := List.nodup_nil
  only := by
    intro cell holds
    rcases only cell holds with isHead | isMore
    · exact Or.inl isHead
    · exact Or.inr (Or.inl isMore)

theorem newGhost_inv (name : LockName) :
    lockInv name ((newGhost : Ghost Process).ledger.part (.lock name)) := by
  cases name with
  | chain chain =>
      have list : ListPart (headOffset chain) [] (some (.table chain))
          ((newGhost : Ghost Process).ledger.part (.lock (.chain chain))) := by
        apply emptyList (.chain chain) rfl
        · refine ⟨chain.1 + 1, Nat.succ_lt_succ chain.2, ?_⟩
          rw [LockName.start, headOffset, Nat.add_mul, Nat.one_mul]
          rfl
        · intro cell holds
          rcases newGhost_only holds with isHead | ⟨other, isChain, isTable⟩ | isEnd | isEnd
          · exact Or.inl isHead.1
          · cases isChain
            exact Or.inr (congrArg some isTable.symm)
          · cases isEnd.1
          · cases isEnd.1
      have empty : tableOn emptyTable chain = emptyTable := by
        funext key
        exact ite_self none
      refine ⟨[], emptyTable, ?_⟩
      exact
        { list := ⟨list, fun _ member => absurd member List.not_mem_nil, List.nodup_nil⟩
          stored := newGhost_part.mpr ⟨rfl, congrArg some empty⟩
          tabulates := ⟨fun _ member => absurd member List.not_mem_nil, fun _ there => absurd rfl there⟩ }
  | free =>
      refine ⟨[], emptyList .free rfl ⟨0, Nat.succ_pos _, rfl⟩ ?_, fun _ member => absurd member List.not_mem_nil⟩
      intro cell holds
      rcases newGhost_only holds with isHead | ⟨other, isChain, isTable⟩ | isEnd | isEnd
      · exact Or.inl isHead.1
      · cases isChain
      · cases isEnd.1
      · cases isEnd.1
  | idxEnd =>
      refine ⟨recordsOffset, by decide, newGhost_part.mpr ⟨rfl, ?_⟩, ?_⟩
      · rw [cellValue, newDisk_length]
      · intro cell holds
        rcases newGhost_only holds with isHead | ⟨other, isChain, isTable⟩ | isEnd | isEnd
        · exact absurd isHead.2 (by decide)
        · cases isChain
        · exact isEnd.2
        · cases isEnd.1
  | datEnd =>
      refine ⟨0, newGhost_part.mpr ⟨rfl, rfl⟩, ?_⟩
      intro cell holds
      rcases newGhost_only holds with isHead | ⟨other, isChain, isTable⟩ | isEnd | isEnd
      · exact absurd isHead.2 (by decide)
      · cases isChain
      · cases isEnd.1
      · exact isEnd.2

theorem newGhost_valid : Valid (newGhost : Ghost Process) newState where
  consistent :=
    { exclusive := fun _ _ _ holds => nomatch holds
      unlocked := fun name _ => newGhost_inv name }
  values := by
    funext cell
    rw [Ledger.values, newGhost, Option.map_map]
    exact congrFun Option.map_id _
  shaped := by
    refine ⟨0, ?_⟩
    simp only [newGhost, newDisk, List.map_append, List.map_replicate]
    rfl
  files := by
    funext file
    cases file with
    | idx => exact newDisk_indexFile.symm
    | dat => rfl
  locks := by
    funext process file byte
    change none = (lockOf file byte).bind fun _ => none
    cases lockOf file byte <;> rfl
  runs := .refl
  history := rfl

/-! ## Every reachable state -/

abbrev Processes (Process : Type) : Type :=
  Pool Process Command Response (State Process) (List Return × DB)

/-- A process is between two calls of the library, or has made all of its calls. -/
def AtRest (processes : Processes Process) (process : Process) : Prop :=
  match processes.programs process with
  | .done _ => True
  | .call (.invoke _) _ => True
  | _ => False

def Finished (processes : Processes Process) (process : Process) : Prop :=
  ∃ results, processes.programs process = .done results

/-- A process can take its next step. -/
def CanStep (processes : Processes Process) (process : Process) : Prop :=
  ∃ command next response after, processes.programs process = .call command next ∧
    Step process command processes.state response after

/-- A process waits for a lock that another holds. -/
def Waits (processes : Processes Process) (process other : Process) : Prop :=
  ∃ file kind start length next,
    processes.programs process = .call (.lock file kind start length) next ∧
      other ≠ process ∧ ∃ byte, inRange start length byte = true ∧
        conflicts kind (processes.state.locks other file byte) = true

/-- No process was ended because the files cannot hold what it wants to store. -/
def WithinLimits (processes : Processes Process) : Prop :=
  ∀ process failure next, processes.programs process = .call (.exit failure) next →
    failure.isLimit = false

variable (Process) in
/-- Processes that end when the files cannot hold what they want to store. -/
abbrev limitLogic : LocalLogic Process Command Response (State Process) (Ghost Process)
    (Known Process) :=
  databaseLogic Process fun failure => failure.isLimit = true

def restingPost (process : Process) (_ : List Return × DB) (there : Known Process) : Prop :=
  there = atRest process .idle

variable {scripts : Process → List Call} {processes : Processes Process}

theorem start_safe (noSep : ∀ process, ∀ call ∈ scripts process, call.NoSeparator) :
    (limitLogic Process).PoolSafe restingPost (startProcesses scripts) := by
  refine ⟨newGhost, newGhost_valid, fun process => ?_⟩
  have safe : LibrarySafe (fun failure => failure.isLimit = true) process (fun _ _ there => there = atRest process .idle)
      (runCalls (scripts process)) openedDB (atRest process .idle) :=
    runCalls_safe (fun _ _ _ _ => id) (fun call member => (noSep process call member).sound)
      fun _ _ _ => rfl
  have here : (limitLogic Process).localOf process newGhost = atRest process .idle :=
    newGhost_localOf process
  rw [here]
  exact safe

theorem reachable_safe (noSep : ∀ process, ∀ call ∈ scripts process, call.NoSeparator)
    (reached : Pool.Reachable (@Step Process _) (startProcesses scripts) processes) :
    (limitLogic Process).PoolSafe restingPost processes :=
  (start_safe noSep).reachable reached

theorem resting_of_atRest {ghost : Ghost Process}
    (safe : ∀ process, (limitLogic Process).Safe process (restingPost process)
      (processes.programs process) (ghost.ledger.localOf process))
    (atRest : ∀ process, AtRest processes process) : ghost.Resting := by
  intro process
  have mine := safe process
  have rest := atRest process
  rw [AtRest] at rest
  refine ⟨.idle, ?_⟩
  split at rest
  · rename_i results isDone
    rw [isDone] at mine
    exact mine
  · rename_i call next isCall
    rw [isCall] at mine
    exact mine.1
  · cases rest

/-! ## Waiting -/

/-- The rank of the lock that begins at an offset of a file. -/
def lockRank (file : File) (start : Nat) : Nat :=
  match file with
  | .dat => 2
  | .idx => if start = FREE_OFF then 1 else if start < recordsOffset then 0 else 2

theorem lockRank_start (name : LockName) : lockRank name.file name.start = name.rank := by
  cases name with
  | chain chain =>
      have bounds := headOffset_bounds chain
      have behind : headOffset chain ≠ FREE_OFF := by omega
      change (if headOffset chain = FREE_OFF then 1
        else if headOffset chain < recordsOffset then 0 else 2) = 0
      rw [if_neg behind, if_pos bounds.2]
  | free => rfl
  | idxEnd => rfl
  | datEnd => rfl

/-- How far a process is in the order in which locks are taken. -/
def waitRank (processes : Processes Process) (process : Process) : Nat :=
  match processes.programs process with
  | .call (.lock file _ start _) _ => lockRank file start
  | _ => 3

theorem LockName.rank_lt (name : LockName) : name.rank < 3 := by
  cases name <;> simp [LockName.rank]

section Waiting

variable {ghost : Ghost Process} {process other : Process}

/-- The process that is waited for holds the lock. -/
theorem held_of_waits (valid : Valid ghost processes.state)
    (safe : ∀ process, (limitLogic Process).Safe process (restingPost process)
      (processes.programs process) (ghost.ledger.localOf process))
    (waits : Waits processes process other) :
    ∃ name : LockName, waitRank processes process = name.rank ∧
      ghost.ledger.held other name ≠ none := by
  rcases waits with ⟨file, kind, start, length, next, isLock, _, byte, inside, blocked⟩
  have mine := safe process
  rw [isLock] at mine
  rcases mine.1 with ⟨name, rfl, rfl, rfl, _⟩
  refine ⟨name, ?_, ?_⟩
  · rw [waitRank, isLock]
    exact lockRank_start name
  · intro free
    have locked : lockOf name.file byte = some name :=
      LockName.lockOf_eq_some.mpr ⟨rfl, inside⟩
    rw [valid.locks, lockTable, locked, Option.bind_some, free] at blocked
    cases kind <;> cases blocked

theorem waitRank_increasing (valid : Valid ghost processes.state)
    (safe : ∀ process, (limitLogic Process).Safe process (restingPost process)
      (processes.programs process) (ghost.ledger.localOf process))
    (waits : Waits processes process other) :
    waitRank processes process < waitRank processes other := by
  rcases held_of_waits valid safe waits with ⟨name, rank, held⟩
  have theirs := safe other
  rw [rank]
  generalize isProgram : processes.programs other = program at theirs
  rw [waitRank, isProgram]
  cases program with
  | done results => exact name.rank_lt
  | call command next =>
      cases command with
      | lock file kind start length =>
          rcases theirs.1 with ⟨wanted, rfl, rfl, rfl, below⟩
          change name.rank < lockRank wanted.file wanted.start
          rw [lockRank_start]
          exact below name held
      | _ => exact name.rank_lt

/-- A process that is waited for is in the middle of a call. -/
theorem busy_of_waits (valid : Valid ghost processes.state)
    (safe : ∀ process, (limitLogic Process).Safe process (restingPost process)
      (processes.programs process) (ghost.ledger.localOf process))
    (waits : Waits processes process other) : ¬ Finished processes other := by
  rcases held_of_waits valid safe waits with ⟨name, _, held⟩
  rintro ⟨results, isDone⟩
  have theirs := safe other
  rw [isDone] at theirs
  have atRest : ghost.ledger.localOf other = atRest other .idle := theirs
  apply held
  exact congrFun (congrArg Holdings.held atRest) name

/-- A process that is not finished can take a step, or it waits for another. -/
theorem canStep_or_waits
    (safe : (limitLogic Process).Safe process (restingPost process)
      (processes.programs process) (ghost.ledger.localOf process))
    (within : WithinLimits processes) (unfinished : ¬ Finished processes process) :
    CanStep processes process ∨ ∃ other, Waits processes process other := by
  cases isProgram : processes.programs process with
  | done results => exact absurd ⟨results, isProgram⟩ unfinished
  | call command next =>
      by_cases granted : Granted process processes.state command
      · cases isEffect : effect process processes.state command with
        | some outcome =>
            exact Or.inl ⟨command, next, outcome.1, outcome.2, isProgram, granted, isEffect⟩
        | none =>
            cases command with
            | exit failure =>
                rw [isProgram] at safe
                cases (within process failure next isProgram).symm.trans safe.1
            | _ => cases isEffect
      · cases command with
        | lock file kind start length =>
            simp only [Granted, not_forall] at granted
            rcases granted with ⟨other, different, byte, inside, blocked⟩
            rw [Bool.not_eq_false] at blocked
            exact Or.inr ⟨other, file, kind, start, length, next, isProgram, different, byte,
              inside, blocked⟩
        | _ => exact absurd trivial granted

/-- While a process is not finished, some process can take a step. -/
theorem progress (valid : Valid ghost processes.state)
    (safe : ∀ process, (limitLogic Process).Safe process (restingPost process)
      (processes.programs process) (ghost.ledger.localOf process))
    (within : WithinLimits processes) (unfinished : ¬ Finished processes process) :
    ∃ other, CanStep processes other := by
  induction left : 3 - waitRank processes process using Nat.strong_induction_on generalizing
    process with
  | _ left hypothesis =>
      rcases canStep_or_waits (safe process) within unfinished with steps | ⟨other, waits⟩
      · exact ⟨process, steps⟩
      · rcases held_of_waits valid safe waits with ⟨name, rank, _⟩
        have := name.rank_lt
        have increasing := waitRank_increasing valid safe waits
        apply hypothesis (3 - waitRank processes other) _ (busy_of_waits valid safe waits) rfl
        omega

end Waiting

/-! ## The guarantees -/

/-- Whatever the processes do in whatever order: their calls are linearizable,
the files are laid out well whenever no call is under way, some process can go
on while one of them is not finished, and none of them wait in a circle. -/
theorem concurrent_calls (noSep : ∀ process, ∀ call ∈ scripts process, call.NoSeparator)
    (reached : Pool.Reachable (@Step Process _) (startProcesses scripts) processes)
    (within : WithinLimits processes) :
    AtomicObject.Linearizable applyCall emptyTable processes.state.history ∧
      ((∀ process, AtRest processes process) → ∃ layout : Layout,
        layout.Describes (processes.state.files .idx) (processes.state.files .dat)) ∧
      ((∃ process, ¬ Finished processes process) → ∃ process, CanStep processes process) ∧
      ∀ group : Finset Process, group.Nonempty →
        ∃ process ∈ group, ∀ other ∈ group, ¬ Waits processes process other := by
  rcases reachable_safe noSep reached with ⟨ghost, valid, safe⟩
  refine ⟨⟨ghost.actions, ghost.object, valid.runs, valid.history⟩, ?_, ?_, ?_⟩
  · intro atRest
    exact Valid.layout valid (resting_of_atRest safe atRest)
  · rintro ⟨process, unfinished⟩
    exact progress valid safe within unfinished
  · intro group nonempty
    apply no_waiting_circle _ nonempty
    · exact waitRank processes
    · intro process _ other _ waits
      exact waitRank_increasing valid safe waits

theorem invoke_step (processes : Processes Process) (process : Process) {call : Call}
    {next : Response (.invoke call) → Program Command Response (List Return × DB)}
    (waiting : processes.programs process = .call (.invoke call) next) :
    Pool.Step (@Step Process _) processes
      ⟨Function.update processes.programs process (next ()), { processes.state with
        history := processes.state.history ++ [.invoke process call] }⟩ :=
  .take process waiting ⟨trivial, rfl⟩

end

theorem noNul_a : ∀ byte ∈ ([97] : Bytes), byte ≠ 0 := by simp

theorem noNul_b : ∀ byte ∈ ([98] : Bytes), byte ≠ 0 := by simp

theorem noNul_c : ∀ byte ∈ ([99] : Bytes), byte ≠ 0 := by simp

def twoStores (_ : Bool) : List Call := [.store ⟨[97], noNul_a⟩ ⟨[98], noNul_b⟩ DB_STORE]

/-- Both processes have begun to store under the same key. -/
theorem concurrent_calls_two_stores : ∃ processes,
    Pool.Reachable (@Step Bool _) (startProcesses twoStores) processes ∧
      processes.state.history.length = 2 ∧
      AtomicObject.Linearizable applyCall emptyTable processes.state.history ∧
      ∃ process, CanStep processes process := by
  have began : Pool.Reachable (@Step Bool _) (startProcesses twoStores) _ :=
    .tail .refl (invoke_step _ true rfl)
  have both := Relation.ReflTransGen.tail began (invoke_step _ false rfl)
  have holds := concurrent_calls (by simp [twoStores, Call.NoSeparator, Call.key, SEP]) both (by
    intro process failure next isExit
    cases process <;> cases isExit)
  refine ⟨_, both, rfl, holds.1, holds.2.2.1 ⟨true, ?_⟩⟩
  rintro ⟨results, isDone⟩
  cases isDone

end Apue.Database
