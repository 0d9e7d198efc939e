import Apue.Database.Lists
import Apue.Foundation.LocalReasoning

/-! # Local reasoning about the library

The locks of the library are byte ranges that do not overlap, each the lock of
one owner of cells. A process sees the cells it owns and those of the locks it
holds, and every system call of the library is a rule about these.
-/

namespace Apue.Database

open Apue.Foundation

/-! ## The byte ranges of the locks -/

/-- Where the index records begin. -/
def recordsOffset : Nat := (NHASH_DEF + 1) * PTR_SZ + 1

theorem headOffset_bounds (chain : Chain) :
    FREE_OFF < headOffset chain ∧ headOffset chain < recordsOffset := by
  have chain_lt : chain.1 < 137 := chain.2
  have offset : headOffset chain = chain.1 * 7 + 7 := rfl
  have records : recordsOffset = 967 := rfl
  have free : FREE_OFF = 0 := rfl
  omega

theorem headOffset_injective {left right : Chain}
    (same : headOffset left = headOffset right) : left = right := by
  have leftOffset : headOffset left = left.1 * 7 + 7 := rfl
  have rightOffset : headOffset right = right.1 * 7 + 7 := rfl
  apply Fin.ext
  omega

open Classical in
/-- The lock that a byte belongs to. -/
noncomputable def lockOf : File → Nat → Option LockName
  | .dat, _ => some LockName.datEnd
  | .idx, byte =>
      if recordsOffset ≤ byte then some .idxEnd
      else if byte = FREE_OFF then some .free
      else if there : ∃ chain : Chain, byte = headOffset chain then
        some (.chain there.choose)
      else none

namespace LockName

def file : LockName → File
  | chain _ => .idx
  | free => .idx
  | idxEnd => .idx
  | datEnd => .dat

def start : LockName → Nat
  | chain number => headOffset number
  | free => FREE_OFF
  | idxEnd => recordsOffset
  | datEnd => 0

def length : LockName → Nat
  | chain _ => 1
  | free => 1
  | idxEnd => 0
  | datEnd => 0

/-- The order in which the library takes its locks. -/
def rank : LockName → Nat
  | chain _ => 0
  | free => 1
  | idxEnd => 2
  | datEnd => 2

theorem inRange_one (start byte : Nat) : inRange start 1 byte = true ↔ byte = start := by
  simp only [inRange, Bool.and_eq_true, decide_eq_true_eq, Bool.or_eq_true, beq_iff_eq]
  omega

theorem inRange_zero (start byte : Nat) : inRange start 0 byte = true ↔ start ≤ byte := by
  simp [inRange]

theorem lockOf_eq_some {place : File} {byte : Nat} {name : LockName} :
    lockOf place byte = some name ↔
      place = name.file ∧ inRange name.start name.length byte = true := by
  cases place with
  | dat =>
      cases name <;> simp [lockOf, file, start, length, inRange]
  | idx =>
      rw [lockOf]
      cases name with
      | chain number =>
          have bounds := headOffset_bounds number
          simp only [file, start, length, inRange_one, true_and]
          constructor
          · intro found
            split at found
            · cases found
            split at found
            · cases found
            split at found
            · rename_i there
              cases found
              exact there.choose_spec
            · cases found
          · rintro rfl
            have there : ∃ chain : Chain, headOffset number = headOffset chain := ⟨number, rfl⟩
            rw [if_neg (by omega), if_neg (by omega), dif_pos there,
              ← headOffset_injective there.choose_spec]
      | free =>
          simp only [file, start, length, inRange_one, true_and]
          constructor
          · intro found
            split at found
            · cases found
            split at found
            · assumption
            split at found
            · cases found
            · cases found
          · rintro rfl
            rw [if_neg (by decide), if_pos rfl]
      | idxEnd =>
          simp only [file, start, length, inRange_zero, true_and]
          constructor
          · intro found
            split at found
            · assumption
            split at found
            · cases found
            split at found
            · cases found
            · cases found
          · intro behind
            rw [if_pos behind]
      | datEnd =>
          simp only [file, reduceCtorEq, false_and, iff_false]
          intro found
          split at found
          · cases found
          split at found
          · cases found
          split at found
          · cases found
          · cases found

end LockName

def kindOf : Mode → LockKind
  | .shared => .read
  | .exclusive => .write

section

variable {Process : Type} [DecidableEq Process]

/-- The lock table when every process holds whole locks of the library. -/
noncomputable def lockTable (held : Process → LockName → Option Mode) :
    Process → File → Nat → Option LockKind :=
  fun process file byte =>
    (lockOf file byte).bind fun name => (held process name).map kindOf

theorem setLocks_lockTable {state : State Process} (process : Process) (name : LockName)
    (mode : Option Mode) {held : Process → LockName → Option Mode}
    (locks : state.locks = lockTable held) :
    (setLocks state process name.file name.start name.length (mode.map kindOf)).locks =
      lockTable (Function.update held process
        (Function.update (held process) name mode)) := by
  funext other file byte
  simp only [setLocks, locks]
  by_cases isProcess : other = process
  · subst isProcess
    simp only [Function.update_self]
    by_cases isLock : lockOf file byte = some name
    · rcases LockName.lockOf_eq_some.mp isLock with ⟨rfl, inside⟩
      simp only [Function.update_self, lockTable, if_pos inside, isLock, Option.bind_some]
    · have unchanged : (Function.update (lockTable held other) name.file fun byte =>
          if inRange name.start name.length byte = true then Option.map kindOf mode
          else lockTable held other name.file byte) file byte =
          lockTable held other file byte := by
        by_cases isFile : file = name.file
        · subst isFile
          rw [Function.update_self, if_neg]
          exact fun inside => isLock (LockName.lockOf_eq_some.mpr ⟨rfl, inside⟩)
        · rw [Function.update_of_ne isFile]
      rw [unchanged]
      cases found : lockOf file byte with
      | none => simp only [lockTable, found, Option.bind_none]
      | some there =>
          have different : there ≠ name := fun same => isLock (found.trans (congrArg some same))
          simp only [lockTable, found, Option.bind_some, Function.update_self,
            Function.update_of_ne different]
  · simp only [Function.update_of_ne isProcess, lockTable]

/-! ## What the processes keep track of -/

inductive ItemKind
  | head
  | newline
  | record
  deriving DecidableEq

def IndexItem.kind : IndexItem → ItemKind
  | head _ => .head
  | newline => .newline
  | record _ _ => .record

/-- The index file begins with the pointer fields and the newline, and only
records follow. -/
def Disk.WellShaped (disk : Disk) : Prop :=
  ∃ records, disk.idx.map IndexItem.kind =
    List.replicate (NHASH_DEF + 1) .head ++ .newline :: List.replicate records .record

/-- The files as items, the map with the calls under way, the steps it took, and
who owns what. -/
structure Ghost (Process : Type) where
  ledger : Ledger Process LockName (@Value Process)
  disk : Disk
  object : AtomicObject Process Table Call Return
  actions : List (Action Process Call Return)

/-- What every cell holds. -/
def cellValue (disk : Disk) (object : AtomicObject Process Table Call Return) :
    Part Process
  | .pointer offset => (disk.item offset).bind IndexItem.pointer
  | .record offset => (disk.item offset).bind IndexItem.body
  | .extent offset => disk.data offset
  | .idxSize => some disk.indexFile.length
  | .datSize => some disk.dataFile.length
  | .table chain => some (tableOn object.object chain)
  | .status process => some (object.pending process)

def emptyTable : Table := fun _ => none

structure Valid (ghost : Ghost Process) (state : State Process) : Prop where
  consistent : ghost.ledger.Consistent lockInv
  values : ghost.ledger.values = cellValue ghost.disk ghost.object
  shaped : ghost.disk.WellShaped
  files : state.files = ghost.disk.files
  locks : state.locks = lockTable ghost.ledger.held
  runs : AtomicObject.Runs applyCall (AtomicObject.start emptyTable) ghost.actions ghost.object
  history : ghost.actions.filterMap Action.visible = state.history

/-- A process that owns nothing but the knowledge of what it has under way. -/
abbrev onlyStatus (process : Process) (pending : Pending Call Return) : Part Process :=
  Fragment.empty.put (.status process) pending

/-- What a process knows that holds no lock. -/
abbrev atRest (process : Process) (pending : Pending Call Return) :
    Holdings LockName (@Value Process) :=
  Holdings.only (onlyStatus process pending)

/-- The calls that a process may come to: a lock only behind locks of lower
rank, a new call of the library only when nothing is left of the last one, and
an end of the process only for the failures `stops`. -/
def Allowed (stops : Failure → Prop) (process : Process) (command : Command)
    (here : Holdings LockName (@Value Process)) : Prop :=
  match command with
  | .open _ _ => False
  | .lock file _ start length => ∃ name : LockName, name.file = file ∧
      name.start = start ∧ name.length = length ∧
      ∀ other : LockName, here.held other ≠ none → other.rank < name.rank
  | .exit failure => stops failure
  | .invoke _ => here = atRest process .idle
  | _ => True

variable (Process) in
def databaseLogic (stops : Failure → Prop) : LocalLogic Process Command Response (State Process) (Ghost Process)
    (Holdings LockName (@Value Process)) where
  step := Step
  valid := Valid
  localOf := fun process ghost => ghost.ledger.localOf process
  allowed := Allowed stops

end

end Apue.Database
