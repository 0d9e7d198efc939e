import Apue.Database.IndexFile

/-! # Processes that open a database

`db_open` with any of the flags `O_RDWR`, `O_CREAT` and `O_TRUNC`, in processes
that share the two files. Every system call may fail: then `db_open` returns
`NULL` if it could not open a file, and everywhere else the library ends the
process.
-/

namespace Apue.Database

open Apue.Foundation Ascii

structure Flags where
  readWrite : Bool
  create : Bool
  truncate : Bool

/-- The calls of the operating system. `returnHandle` marks that `db_open` returns
a handle, and `closeFiles` is `_db_free` or the end of the process. -/
inductive SystemCommand
  | openFile (file : File) (flags : Flags)
  | library (command : Command)
  | returnHandle
  | closeFiles

/-- A call of the library that fails has no response. -/
abbrev SystemResponse : SystemCommand → Type
  | .openFile _ _ => Bool
  | .library command => Option (Response command)
  | _ => Unit

/-! ## The programs -/

abbrev SystemProgram : Type → Type := Program SystemCommand SystemResponse

def request (command : SystemCommand) : SystemProgram (SystemResponse command) :=
  Program.perform command

/-- `db_open` once both files are open. -/
def dbInitialise (create truncate : Bool) : Library Unit := do
  if create && truncate then
    perform (.lock .idx .write 0 0)
    let size : Nat ← perform (.size .idx)
    if size = 0 then
      let asciiptr := padLeft PTR_SZ (decimal 0)
      writeIdx ((List.replicate (NHASH_DEF + 1) asciiptr).flatten ++ [NEWLINE])
    perform (.unlock .idx 0 0)
  dbRewind

theorem dbOpen_initialises (create truncate : Bool) : dbOpen create truncate = (do
    perform (.open .idx truncate)
    perform (.open .dat truncate)
    dbInitialise create truncate) := rfl

/-- A part of the library, with the process ended by the first call that fails. -/
def withFailures {Result : Type} :
    Program Command Response Result → SystemProgram (Option Result)
  | .done result => .done (some result)
  | .call command next => .call (.library command) fun
      | some response => withFailures (next response)
      | none => .done none

inductive Opened
  | handle (db : DB)
  | null
  | ended

/-- `db_open` with every outcome of its system calls. -/
def dbOpenFiles (flags : Flags) : SystemProgram Opened := do
  let idx : Bool ← request (.openFile .idx flags)
  let dat : Bool ← request (.openFile .dat flags)
  if !idx || !dat then
    request .closeFiles
    return .null
  match ← withFailures (dbInitialise flags.create flags.truncate dbAlloc) with
  | none => return .ended
  | some (_, db) =>
      request .returnHandle
      return .handle db

/-- What can be done with a handle. -/
inductive HandleCall
  | call (call : Call)
  | nextrec
  | rewind

def HandleCall.execute : HandleCall → Library Unit
  | .call inner => do
      let _ ← inner.execute
      return ()
  | .nextrec => do
      let _ ← dbNextrec
      return ()
  | .rewind => dbRewind

def useHandle : List HandleCall → Library Unit
  | [] => return ()
  | call :: calls => do
      call.execute
      useHandle calls

/-- A process opens the database, uses its handle and closes it. -/
structure Session where
  flags : Flags
  calls : List HandleCall

/-- The result tells whether the process goes on. -/
def Session.run (session : Session) : SystemProgram Bool := do
  match ← dbOpenFiles session.flags with
  | .null => return true
  | .ended =>
      request .closeFiles
      return false
  | .handle db =>
      let result ← withFailures (useHandle session.calls db)
      request .closeFiles
      return result.isSome

def runSessions : List Session → SystemProgram Unit
  | [] => return ()
  | session :: sessions => do
      if ← session.run then
        runSessions sessions

/-! ## The system -/

/-- The files with their locks, whether they are there, who has them open, for
writing too or not, and who has a handle. -/
structure System (Process : Type) where
  state : State Process
  there : File → Bool
  descriptors : Process → File → Option Bool
  handles : Process → Bool

/-- A descriptor is needed for every call, and one that was opened with `O_RDWR` for
writing and for write locks. -/
def Permitted (descriptors : File → Option Bool) : Command → Prop
  | .open _ _ => False
  | .size file => descriptors file ≠ none
  | .read file _ _ => descriptors file ≠ none
  | .write file _ _ => descriptors file = some true
  | .lock file kind _ _ => descriptors file = some true ∨ kind = .read ∧ descriptors file ≠ none
  | .unlock file _ _ => descriptors file ≠ none
  | _ => True

section

variable {Process : Type} [DecidableEq Process]

namespace System

/-- A file is opened, made if it is not there, and emptied with `O_TRUNC`. -/
def opened (system : System Process) (process : Process) (file : File) (flags : Flags) :
    System Process :=
  { system with
    state := if system.there file && !flags.truncate then system.state
      else setFile system.state file []
    there := Function.update system.there file true
    descriptors := Function.update system.descriptors process
      (Function.update (system.descriptors process) file (some flags.readWrite)) }

/-- A process that closes the files loses all its locks on them. -/
def closed (system : System Process) (process : Process) : System Process where
  state := { system.state with
    locks := Function.update system.state.locks process fun _ _ => none }
  there := system.there
  descriptors := Function.update system.descriptors process fun _ => none
  handles := Function.update system.handles process false

def Step (process : Process) (command : SystemCommand) (before : System Process)
    (response : SystemResponse command) (after : System Process) : Prop :=
  match command, response with
  | .openFile _ _, false => after = before
  | .openFile file flags, true =>
      (before.there file = true ∨ flags.create = true) ∧ after = before.opened process file flags
  | .library _, none => after = before
  | .library command, some response => Permitted (before.descriptors process) command ∧
      ∃ state, Database.Step process command before.state response state ∧
        after = { before with state := state }
  | .returnHandle, _ =>
      after = { before with handles := Function.update before.handles process true }
  | .closeFiles, _ => after = before.closed process

/-- The files before any process has opened them; `none` for one that is not there. -/
def first (files : File → Option Bytes) : System Process where
  state :=
    { files := fun file => (files file).getD []
      locks := fun _ _ _ => none
      history := [] }
  there := fun file => (files file).isSome
  descriptors := fun _ _ => none
  handles := fun _ => false

end System

abbrev Openers (Process : Type) : Type :=
  Pool Process SystemCommand SystemResponse (System Process) Unit

def startSessions (scripts : Process → List Session) (files : File → Option Bytes) :
    Openers Process where
  programs := fun process => runSessions (scripts process)
  state := System.first files

/-- How the index file has to be opened: with both of `O_CREAT` and `O_TRUNC`, and
emptied only if nobody else has it open; or without `O_TRUNC`, and then it is not
empty. -/
def OpensWell (process : Process) (command : SystemCommand) (before : System Process) : Prop :=
  match command with
  | .openFile .idx flags => before.there .idx = true ∨ flags.create = true →
      if flags.truncate then flags.create = true ∧ (before.state.files .idx = [] ∨
        ∀ other, other ≠ process → before.descriptors other .idx = none)
      else before.state.files .idx ≠ []
  | _ => True

/-- A file is there or made, and opened. -/
theorem open_step (openers : Openers Process) (process : Process) {file : File} {flags : Flags}
    {next : Bool → SystemProgram Unit}
    (waiting : openers.programs process = .call (.openFile file flags) next)
    (allowed : openers.state.there file = true ∨ flags.create = true) :
    Pool.Step System.Step openers ⟨Function.update openers.programs process (next true),
      openers.state.opened process file flags⟩ :=
  .take process waiting ⟨allowed, rfl⟩

theorem handle_step (openers : Openers Process) (process : Process)
    {next : Unit → SystemProgram Unit}
    (waiting : openers.programs process = .call .returnHandle next) :
    Pool.Step System.Step openers ⟨Function.update openers.programs process (next ()),
      { openers.state with
        handles := Function.update openers.state.handles process true }⟩ :=
  .take process waiting rfl

end

/-! ## A database that is created without `O_TRUNC` -/

def createOnly (_ : Unit) : List Session :=
  [{ flags := { readWrite := true, create := true, truncate := false }
     calls := [.call (.fetch ⟨[97], noNul_a⟩)] }]

theorem create_without_header : ∃ openers : Openers Unit,
    Pool.Reachable System.Step (startSessions createOnly fun _ => none) openers ∧
      openers.state.handles () = true ∧ openers.state.state.files .idx = [] ∧
      ¬ HasHeader (openers.state.state.files .idx) := by
  have idx : Pool.Reachable System.Step (startSessions createOnly fun _ => none) _ :=
    .tail .refl (open_step _ () rfl (Or.inr rfl))
  have dat := Relation.ReflTransGen.tail idx (open_step _ () rfl (Or.inr rfl))
  have handle := Relation.ReflTransGen.tail dat (handle_step _ () rfl)
  refine ⟨_, handle, rfl, rfl, fun header => ?_⟩
  exact absurd header.length_le (by decide)

end Apue.Database
