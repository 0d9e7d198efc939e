import Apue.Foundation.Always
import Apue.Foundation.ByteFile
import Apue.Foundation.FileTree

/-! # System calls of the synchronisers

The calls that `Multi_thread_rsync_task`, `Multi_process_rsync_task` and
`rsync_task` make, and how the operating system answers them when no call fails
that has to succeed. A directory is read by one call, which stands for `opendir`,
the calls of `readdir` and `closedir`. A program keeps the offset of a descriptor
itself, as nobody else uses it. `fopen`, `fread` and `fclose` on a stream that is
only read are calls too.
-/

namespace Apue.Sync

open Apue.Foundation

structure Stat where
  isDirectory : Bool
  size : Int
  mtime : Int
  mode : Nat

/-- An open file. Its length when it was opened bounds the loops that read it. -/
structure Descriptor where
  number : Nat
  place : Place
  length : Nat

def EPERM : Int := 1

def EEXIST : Int := 17

/-- The ways in which a call of `sync_file` ends. -/
inductive Outcome
  | same
  | dryRun
  | copied
  | failed
  deriving DecidableEq

inductive SysCall
  | stat (path : Bytes)
  | access (path : Bytes)
  | readDirectory (path : Bytes)
  | mkdir (path : Bytes)
  | openRead (path : Bytes)
  | openWrite (path : Bytes)
  | read (descriptor : Descriptor) (offset count : Nat)
  | fread (descriptor : Descriptor) (offset count : Nat)
  | write (descriptor : Descriptor) (offset : Nat) (text : Bytes)
  | fstat (descriptor : Descriptor)
  | close (descriptor : Descriptor)
  | utimes (path : Bytes) (mtime : Int)
  | chmod (path : Bytes) (mode : Nat)
  | chown (path : Bytes)
  /-- The line that a dry run prints for a file to be synchronised. -/
  | report (source target : Bytes)
  /-- No call of the program: it marks where a recursion goes on with a directory. -/
  | descend (outer inner : Bytes)
  /-- No call of the program: it marks where the paths for an entry of a directory
  are put on a list or given to `sync_file`. -/
  | handing (directory name source target : Bytes)
  /-- No call of the program: it marks where a call of `sync_file` ends. -/
  | finished (outcome : Outcome)
  /-- A loop does not end within its bound. -/
  | outOfRounds
  /-- A recursion does not end within its bound. -/
  | tooDeep
  /-- The behaviour of the program is undefined from here on. -/
  | undefined

/-- `none`, `false` and a number that is not 0 stand for a call that fails, the
number being `errno`. -/
def SysResponse : SysCall → Type
  | .stat _ => Option Stat
  | .access _ => Bool
  | .readDirectory _ => Option (List Bytes)
  | .mkdir _ => Int
  | .openRead _ => Option Descriptor
  | .openWrite _ => Option Descriptor
  | .read _ _ _ => Option Bytes
  | .fread _ _ _ => Bytes
  | .write _ _ _ => Option Nat
  | .fstat _ => Option Stat
  | .close _ => Unit
  | .utimes _ _ => Bool
  | .chmod _ _ => Bool
  | .chown _ => Int
  | .report _ _ => Unit
  | .descend _ _ => Unit
  | .handing _ _ _ _ => Unit
  | .finished _ => Unit
  | .outOfRounds => Empty
  | .tooDeep => Empty
  | .undefined => Empty

abbrev Sys : Type → Type := Program SysCall SysResponse

namespace Sys

variable {Result : Type}

def stat (path : Bytes) : Sys (Option Stat) := .perform (SysCall.stat path)

def access (path : Bytes) : Sys Bool := .perform (SysCall.access path)

def readDirectory (path : Bytes) : Sys (Option (List Bytes)) :=
  .perform (SysCall.readDirectory path)

def mkdir (path : Bytes) : Sys Int := .perform (SysCall.mkdir path)

def openRead (path : Bytes) : Sys (Option Descriptor) := .perform (SysCall.openRead path)

def openWrite (path : Bytes) : Sys (Option Descriptor) := .perform (SysCall.openWrite path)

def read (descriptor : Descriptor) (offset count : Nat) : Sys (Option Bytes) :=
  .perform (SysCall.read descriptor offset count)

def fread (descriptor : Descriptor) (offset count : Nat) : Sys Bytes :=
  .perform (SysCall.fread descriptor offset count)

def write (descriptor : Descriptor) (offset : Nat) (text : Bytes) : Sys (Option Nat) :=
  .perform (SysCall.write descriptor offset text)

def fstat (descriptor : Descriptor) : Sys (Option Stat) := .perform (SysCall.fstat descriptor)

def close (descriptor : Descriptor) : Sys Unit := .perform (SysCall.close descriptor)

def utimes (path : Bytes) (mtime : Int) : Sys Bool := .perform (SysCall.utimes path mtime)

def chmod (path : Bytes) (mode : Nat) : Sys Bool := .perform (SysCall.chmod path mode)

def chown (path : Bytes) : Sys Int := .perform (SysCall.chown path)

def report (source target : Bytes) : Sys Unit := .perform (SysCall.report source target)

def descend (outer inner : Bytes) : Sys Unit := .perform (SysCall.descend outer inner)

def handing (directory name source target : Bytes) : Sys Unit :=
  .perform (SysCall.handing directory name source target)

def finished (outcome : Outcome) : Sys Unit := .perform (SysCall.finished outcome)

def outOfRounds : Sys Result := .call SysCall.outOfRounds fun never : Empty => nomatch never

def tooDeep : Sys Result := .call SysCall.tooDeep fun never : Empty => nomatch never

def undefined : Sys Result := .call SysCall.undefined fun never : Empty => nomatch never

end Sys

/-! ## How the calls are answered -/

def nodeStat : Node → Stat
  | .directory size mtime => ⟨true, size, mtime, 493⟩
  | .regular file => ⟨false, file.data.length, file.mtime, file.mode⟩

/-- The files, with the paths that were opened for writing, the lines that were
printed and how the calls of `sync_file` ended. -/
structure SysState where
  files : Files
  cwd : Place
  opened : List Bytes
  reported : List (Bytes × Bytes)
  outcomes : List Outcome

namespace SysState

variable (state : SysState)

def lookup (path : Bytes) : Option (Place × Node) :=
  state.files.lookup state.cwd path

def statOf (path : Bytes) : Option Stat := (state.lookup path).map fun found => nodeStat found.2

def setNode (place : Place) (node : Node) : SysState :=
  { state with files := Function.update state.files place (some node) }

/-- The bytes of the file that a descriptor stands for; `none` for a directory. -/
def dataOf (descriptor : Descriptor) : Option Bytes :=
  match state.files descriptor.place with
  | some (.regular file) => some file.data
  | _ => none

end SysState

def trimSlashes (path : Bytes) : Bytes :=
  (path.reverse.dropWhile (· == Path.SLASH)).reverse

/-- `mkdir` ignores slashes at the end of its argument, but for a path that has
nothing else. -/
def mkdirPath (path : Bytes) : Bytes :=
  if trimSlashes path = [] then path else trimSlashes path

/-- The answer to a call when everything succeeds. `stat`, `access`, and opening
for reading tell what is there; `mkdir` and opening for writing have to succeed,
but for a directory that is there already. A call of `read` on a regular file
returns what is asked for, as far as the file goes. -/
inductive Answers : (call : SysCall) → SysState → SysResponse call → SysState → Prop
  | stat (path : Bytes) (state : SysState) :
      Answers (.stat path) state (state.statOf path) state
  | access (path : Bytes) (state : SysState) :
      Answers (.access path) state (state.lookup path).isSome state
  | readDirectory {path : Bytes} {state : SysState} {place : Place} {size : Nat} {mtime : Int}
      {names : List Bytes} (found : state.lookup path = some (place, .directory size mtime))
      (lists : state.files.Lists place names) :
      Answers (.readDirectory path) state (some names : Option (List Bytes)) state
  | noDirectory {path : Bytes} {state : SysState}
      (missing : ∀ place size mtime, state.lookup path ≠ some (place, .directory size mtime)) :
      Answers (.readDirectory path) state (none : Option (List Bytes)) state
  | mkdirExists {path : Bytes} {state : SysState} {place : Place} {node : Node}
      (found : state.lookup (mkdirPath path) = some (place, node)) :
      Answers (.mkdir path) state EEXIST state
  | mkdir {path : Bytes} {state : SysState} {place : Place} (size : Nat) (mtime : Int)
      (resolved : state.files.resolve state.cwd (mkdirPath path) = some place)
      (absent : state.files place = none) :
      Answers (.mkdir path) state (0 : Int) (state.setNode place (.directory size mtime))
  | openRead {path : Bytes} {state : SysState} {place : Place} {node : Node} (number : Nat)
      (found : state.lookup path = some (place, node)) :
      Answers (.openRead path) state
        (some ⟨number, place, (nodeStat node).size.toNat⟩ : Option Descriptor) state
  | openMissing {path : Bytes} {state : SysState} (missing : state.lookup path = none) :
      Answers (.openRead path) state (none : Option Descriptor) state
  | openExisting {path : Bytes} {state : SysState} {place : Place} {file : RegularFile}
      (number : Nat) (now : Int) (found : state.lookup path = some (place, .regular file)) :
      Answers (.openWrite path) state (some ⟨number, place, 0⟩ : Option Descriptor)
        { state.setNode place (.regular { file with data := [], mtime := now }) with
          opened := state.opened ++ [path] }
  | openNew {path : Bytes} {state : SysState} {place : Place} (number : Nat) (now : Int)
      (resolved : state.files.resolve state.cwd path = some place)
      (absent : state.files place = none) :
      Answers (.openWrite path) state (some ⟨number, place, 0⟩ : Option Descriptor)
        { state.setNode place (.regular ⟨[], now, 420⟩) with
          opened := state.opened ++ [path] }
  | read {descriptor : Descriptor} {offset count : Nat} {state : SysState} {data : Bytes}
      (found : state.dataOf descriptor = some data) :
      Answers (.read descriptor offset count) state
        (some ((data.drop offset).take count) : Option Bytes) state
  | readNothing {descriptor : Descriptor} {offset count : Nat} {state : SysState}
      (directory : state.dataOf descriptor = none) :
      Answers (.read descriptor offset count) state (none : Option Bytes) state
  | fread (descriptor : Descriptor) (offset count : Nat) (state : SysState) :
      Answers (.fread descriptor offset count) state
        ((((state.dataOf descriptor).getD []).drop offset).take count) state
  | write {descriptor : Descriptor} {offset : Nat} {text : Bytes} {state : SysState}
      {file : RegularFile} (now : Int)
      (found : state.files descriptor.place = some (.regular file)) :
      Answers (.write descriptor offset text) state (some text.length : Option Nat)
        (state.setNode descriptor.place
          (.regular { file with data := pwrite file.data offset text, mtime := now }))
  | fstat {descriptor : Descriptor} {state : SysState} {node : Node}
      (found : state.files descriptor.place = some node) :
      Answers (.fstat descriptor) state (some (nodeStat node) : Option Stat) state
  | close (descriptor : Descriptor) (state : SysState) :
      Answers (.close descriptor) state () state
  | utimes {path : Bytes} {state : SysState} {place : Place} {file : RegularFile} (mtime : Int)
      (found : state.lookup path = some (place, .regular file)) :
      Answers (.utimes path mtime) state true
        (state.setNode place (.regular { file with mtime := mtime }))
  | chmod {path : Bytes} {state : SysState} {place : Place} {file : RegularFile} (mode : Nat)
      (found : state.lookup path = some (place, .regular file)) :
      Answers (.chmod path mode) state true
        (state.setNode place (.regular { file with mode := mode }))
  | chown {path : Bytes} {state : SysState} {place : Place} {node : Node}
      (found : state.lookup path = some (place, node)) :
      Answers (.chown path) state (0 : Int) state
  | chownForbidden {path : Bytes} {state : SysState} {place : Place} {node : Node}
      (found : state.lookup path = some (place, node)) :
      Answers (.chown path) state EPERM state
  | report (source target : Bytes) (state : SysState) :
      Answers (.report source target) state ()
        { state with reported := state.reported ++ [(source, target)] }
  | descend (outer inner : Bytes) (state : SysState) :
      Answers (.descend outer inner) state () state
  | handing (directory name source target : Bytes) (state : SysState) :
      Answers (.handing directory name source target) state () state
  | finished (outcome : Outcome) (state : SysState) :
      Answers (.finished outcome) state ()
        { state with outcomes := state.outcomes ++ [outcome] }

end Apue.Sync
