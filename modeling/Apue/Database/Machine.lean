import Apue.Database.Library
import Apue.Foundation.AtomicObject

/-! # Processes on one database

The two files, the byte-range locks that `fcntl` keeps for every process, and
the calls of the library seen from outside. A lock is granted when no other
process holds a conflicting one on a byte of its range. System calls do not fail.
-/

namespace Apue.Database

open Apue.Foundation Ascii

structure State (Process : Type) where
  files : File → Bytes
  locks : Process → File → Nat → Option LockKind
  history : List (Event Process Call Return)

def inRange (start length byte : Nat) : Bool :=
  start ≤ byte && (length == 0 || byte < start + length)

def conflicts (wanted : LockKind) (held : Option LockKind) : Bool :=
  match wanted, held with
  | _, none => false
  | .read, some .read => false
  | _, _ => true

section

variable {Process : Type} [DecidableEq Process]

def setFile (state : State Process) (file : File) (contents : Bytes) : State Process :=
  { state with files := Function.update state.files file contents }

def setLocks (state : State Process) (process : Process) (file : File)
    (start length : Nat) (kind : Option LockKind) : State Process :=
  { state with
    locks := Function.update state.locks process
      (Function.update (state.locks process) file fun byte =>
        if inRange start length byte then kind else state.locks process file byte) }

/-- What a call does when it is granted. The process does not come back from
`exit`. -/
def effect (process : Process) (state : State Process) :
    (command : Command) → Option (Response command × State Process)
  | .open file truncate =>
      some ((), if truncate then setFile state file [] else state)
  | .size file => some ((state.files file).length, state)
  | .read file offset count => some (pread (state.files file) offset count, state)
  | .write file offset text =>
      some ((), setFile state file (pwrite (state.files file) offset text))
  | .lock file kind start length =>
      some ((), setLocks state process file start length (some kind))
  | .unlock file start length =>
      some ((), setLocks state process file start length none)
  | .exit _ => none
  | .invoke call =>
      some ((), { state with history := state.history ++ [.invoke process call] })
  | .respond result =>
      some ((), { state with history := state.history ++ [.respond process result] })

/-- Locks have to wait for conflicting locks of other processes. -/
def Granted (process : Process) (state : State Process) : Command → Prop
  | .lock file kind start length =>
      ∀ other, other ≠ process → ∀ byte, inRange start length byte = true →
        conflicts kind (state.locks other file byte) = false
  | _ => True

def Step (process : Process) (command : Command) (state : State Process)
    (response : Response command) (after : State Process) : Prop :=
  Granted process state command ∧ effect process state command = some (response, after)

end

/-! ## One process alone -/

/-- The answer to a call when there is no other process. -/
def answer (command : Command) (state : State Unit) :
    Except Failure (Response command × State Unit) :=
  match command, effect () state command with
  | _, some outcome => .ok outcome
  | .exit failure, none => .error failure
  | _, none => .error .loopBound

theorem step_of_answer {command : Command} {state after : State Unit}
    {response : Response command} (answered : answer command state = .ok (response, after)) :
    Step () command state response after := by
  have granted : Granted () state command := by
    cases command with
    | lock => exact fun other different => absurd rfl different
    | _ => trivial
  refine ⟨granted, ?_⟩
  cases command <;> first | exact congrArg some (Except.ok.inj answered) | cases answered

/-- Two files whose contents do not matter, before the database is made. -/
def stateWith (idx dat : Bytes) : State Unit where
  files
    | .idx => idx
    | .dat => dat
  locks := fun _ _ _ => none
  history := []

/-- A process that makes a new database and then makes some calls. -/
def session (calls : List Call) : Library (List Return) := do
  dbOpen true true
  runCalls calls

def runSession (calls : List Call) (idx dat : Bytes) :
    Except Failure ((List Return × DB) × State Unit) :=
  (session calls dbAlloc).run answer (stateWith idx dat)

/-! ## Many processes -/

/-- The index file that `db_open` makes. -/
def emptyIndex : Bytes :=
  (List.replicate (NHASH_DEF + 1) (padLeft PTR_SZ (decimal 0))).flatten ++ [NEWLINE]

/-- The structure that `db_open` returns. -/
def openedDB : DB :=
  { dbAlloc with
    idxoff := ((NHASH_DEF + 1) * PTR_SZ + 1 : Nat)
    idxPosition := (NHASH_DEF + 1) * PTR_SZ + 1 }

/-- A new database, which nobody has used yet. -/
def newState {Process : Type} : State Process where
  files
    | .idx => emptyIndex
    | .dat => []
  locks := fun _ _ _ => none
  history := []

/-- Processes that have opened a new database, each with the calls it is going
to make. -/
def startProcesses {Process : Type} (scripts : Process → List Call) :
    Pool Process Command Response (State Process) (List Return × DB) where
  programs := fun process => runCalls (scripts process) openedDB
  state := newState

end Apue.Database
