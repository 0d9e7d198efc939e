import Apue.Foundation.Run
import Mathlib.Data.Finset.Erase
import Mathlib.Data.Finset.Insert
import Mathlib.Logic.Function.Basic

/-! # Streams to and from commands

`popen` and `pclose` of `lib/popen.c`, with the descriptors and the children of the process. A
function is undefined (`none`) where it accesses something outside `childpid`.
-/

namespace Apue.Library.Popen

open Apue.Foundation

/-- What a descriptor refers to. The pipes of `popen` are numbered. -/
inductive File
  | other (name : Nat)
  | readEnd (pipe : Nat)
  | writeEnd (pipe : Nat)
  deriving DecidableEq

abbrev Table := Nat → Option File

def close (table : Table) (fd : Nat) : Table := Function.update table fd none

def dup2 (table : Table) (fd fd2 : Nat) : Table := Function.update table fd2 (table fd)

/-- The descriptor is an end of the pipe. -/
def Refers (table : Table) (fd pipe : Nat) : Prop :=
  table fd = some (.readEnd pipe) ∨ table fd = some (.writeEnd pipe)

/-- A stream that `popen` returned and `pclose` has not closed, with its child and its pipe. -/
structure Stream where
  child : Nat
  pipe : Nat
  deriving DecidableEq

/-- `streams` has the streams that are open under their descriptors. `pipes` pipes have been made,
and the last of them has this number. -/
structure Process where
  childpid : Option (List Nat)
  maxfd : Nat
  table : Table
  unwaited : Finset Nat
  streams : Nat → Option Stream
  pipes : Nat

inductive Failure
  | EINVAL
  | EMFILE
  | calloc
  | pipe
  | fork
  | fdopen
  | fclose
  | waitpid
  deriving DecidableEq

def STDIN_FILENO : Nat := 0
def STDOUT_FILENO : Nat := 1

/-! ## The functions -/

/-- What the calls in `popen` return in the parent. -/
structure Results where
  calloc : Bool
  pipe : Option (Nat × Nat)
  fork : Option Nat
  fdopen : Bool

/-- `openMax` is what `open_max` returns, which is the same number each time. -/
def allocate (openMax : Nat) (process : Process) (calloc : Bool) : Process :=
  if process.childpid = none then
    { process with
      maxfd := openMax
      childpid := if calloc then some (List.replicate openMax 0) else none }
  else process

def makePipe (process : Process) (pfd : Nat × Nat) : Process :=
  { process with
    table := Function.update (Function.update process.table pfd.1 (some (.readEnd (process.pipes + 1))))
      pfd.2 (some (.writeEnd (process.pipes + 1)))
    pipes := process.pipes + 1 }

/-- `popen` up to the call of `fork`. -/
def beforeFork (openMax : Nat) (process : Process) (type : List Char) (results : Results) :
    Process × Except Failure (Nat × Nat) :=
  if type ≠ ['r'] ∧ type ≠ ['w'] then (process, .error .EINVAL)
  else
    let process := allocate openMax process results.calloc
    if process.childpid = none then (process, .error .calloc)
    else
      match results.pipe with
      | none => (process, .error .pipe)
      | some pfd =>
          let process := makePipe process pfd
          if pfd.1 ≥ process.maxfd ∨ pfd.2 ≥ process.maxfd then
            ({ process with table := close (close process.table pfd.1) pfd.2 }, .error .EMFILE)
          else (process, .ok pfd)

/-- The descriptor that the parent closes, and the one that it keeps. -/
def parentEnds (type : List Char) (pfd : Nat × Nat) : Nat × Nat :=
  if type = ['r'] then (pfd.2, pfd.1) else (pfd.1, pfd.2)

/-- `popen` in the parent. -/
def popen (openMax : Nat) (process : Process) (type : List Char) (results : Results) :
    Option (Process × Except Failure Nat) :=
  match beforeFork openMax process type results with
  | (process, .error failure) => some (process, .error failure)
  | (process, .ok pfd) =>
      match results.fork with
      | none => some (process, .error .fork)
      | some pid =>
          let (closed, fd) := parentEnds type pfd
          let process := { process with
            unwaited := insert pid process.unwaited
            table := close process.table closed }
          if results.fdopen = false then some (process, .error .fdopen)
          else do
            let childpid ← process.childpid
            if fd < childpid.length then
              some ({ process with
                childpid := some (childpid.set fd pid)
                streams := Function.update process.streams fd (some ⟨pid, process.pipes⟩) }, .ok fd)
            else none

/-- The child moves its end of the pipe to a standard descriptor. -/
def redirect (table : Table) (unused used standard : Nat) : Table :=
  let table := close table unused
  if used ≠ standard then close (dup2 table used standard) used else table

/-- `popen` in the child up to the call of `execl`, with the descriptors that are open there. -/
def popenChild (process : Process) (type : List Char) (pfd : Nat × Nat) : Option Table := do
  let table :=
    if type = ['r'] then redirect process.table pfd.1 pfd.2 STDOUT_FILENO
    else redirect process.table pfd.2 pfd.1 STDIN_FILENO
  let childpid ← process.childpid
  -- close all descriptors in childpid[]
  (List.range process.maxfd).foldlM (fun table i => do
    let pid ← childpid[i]?
    return if pid > 0 then close table i else table) table

/-- `fd` is the descriptor of `fp`. `waitpid` is what the last call of it returns, after any number
that were interrupted. -/
def pclose (process : Process) (fd : Nat) (fclose : Bool) (waitpid : Option Int) :
    Option (Process × Except Failure Int) :=
  match process.childpid with
  | none => some (process, .error .EINVAL)
  | some childpid =>
      if fd ≥ process.maxfd then some (process, .error .EINVAL)
      else do
        let pid ← childpid[fd]?
        if pid = 0 then return (process, .error .EINVAL)
        let process := { process with
          childpid := some (childpid.set fd 0)
          table := close process.table fd
          streams := Function.update process.streams fd none }
        if fclose = false then return (process, .error .fclose)
        match waitpid with
        | none => return (process, .error .waitpid)
        | some stat => return ({ process with unwaited := process.unwaited.erase pid }, .ok stat)

/-! ## Histories -/

/-- In between the process may do anything with its other descriptors and its children. -/
inductive Action
  | popen (type : List Char) (results : Results)
  | pclose (fd : Nat) (fclose : Bool) (waitpid : Option Int)
  | elsewhere (table : Table) (unwaited : Finset Nat)

def step (openMax : Nat) (process : Process) : Action → Option Process
  | .popen type results => (popen openMax process type results).map Prod.fst
  | .pclose fd fclose waitpid => (pclose process fd fclose waitpid).map Prod.fst
  | .elsewhere table unwaited => some { process with table, unwaited }

/-- `pipe` returns two descriptors that are not open, and `fork` the number of a new process. -/
structure Plausible (process : Process) (results : Results) : Prop where
  different : ∀ pfd ∈ results.pipe, pfd.1 ≠ pfd.2
  first : ∀ pfd ∈ results.pipe, process.table pfd.1 = none
  second : ∀ pfd ∈ results.pipe, process.table pfd.2 = none
  positive : ∀ pid ∈ results.fork, 0 < pid
  fresh : ∀ pid ∈ results.fork, pid ∉ process.unwaited

/-- Elsewhere the descriptors of streams are left alone, and those that are opened do not refer to
the pipes of `popen`. -/
def Granted (process : Process) : Action → Prop
  | .popen _ results => Plausible process results
  | .pclose _ _ _ => True
  | .elsewhere table _ => (∀ fd, process.streams fd ≠ none → table fd = process.table fd) ∧
      ∀ fd pipe, Refers table fd pipe → table fd = process.table fd

/-- Before the first call any descriptors may be open. -/
def Process.initial (opened : Nat → Option Nat) (unwaited : Finset Nat) : Process where
  childpid := none
  maxfd := 0
  table := fun fd => (opened fd).map File.other
  unwaited := unwaited
  streams := fun _ => none
  pipes := 0

/-- The child of the stream that is open on a descriptor, or 0. -/
def Process.childAt (process : Process) (fd : Nat) : Nat :=
  match process.streams fd with
  | none => 0
  | some stream => stream.child

/-- `childpid` tells the child of the stream on each descriptor, and 0 where there is none. -/
structure Recorded (process : Process) : Prop where
  unallocated : process.childpid = none → ∀ fd, process.streams fd = none
  size : ∀ childpid, process.childpid = some childpid → childpid.length = process.maxfd
  entry : ∀ childpid, process.childpid = some childpid → ∀ fd < process.maxfd,
    childpid[fd]? = some (process.childAt fd)
  inside : ∀ fd, process.streams fd ≠ none → fd < process.maxfd

/-- The same descriptors are open, and the same children have not been waited for. -/
structure Unchanged (before after : Process) : Prop where
  table : after.table = before.table
  unwaited : after.unwaited = before.unwaited

/-- The call of `popen` gets as far as `fork`. -/
def ReachesFork (openMax : Nat) (process : Process) (type : List Char) (results : Results) : Prop :=
  (type = ['r'] ∨ type = ['w']) ∧ (process.childpid ≠ none ∨ results.calloc = true) ∧
    ∃ pfd, results.pipe = some pfd ∧
      pfd.1 < (if process.childpid = none then openMax else process.maxfd) ∧
      pfd.2 < if process.childpid = none then openMax else process.maxfd

/-- A call of `popen` that fails leaves everything as it was. -/
def Restores (openMax : Nat) (process : Process) (type : List Char) (results : Results) : Prop :=
  ∀ after failure, popen openMax process type results = some (after, .error failure) →
    Unchanged process after

/-! ## What holds at all times -/

/-- Each stream has a descriptor for its end of its pipe, and no other descriptor refers to it. -/
structure Coherent (process : Process) : Prop where
  recorded : Recorded process
  positive : ∀ fd stream, process.streams fd = some stream → 0 < stream.child
  refers : ∀ fd stream, process.streams fd = some stream → Refers process.table fd stream.pipe
  sole : ∀ fd stream other, process.streams fd = some stream →
    Refers process.table other stream.pipe → other = fd
  numbered : ∀ fd pipe, Refers process.table fd pipe → pipe ≤ process.pipes

section Coherent

variable {process : Process}

theorem close_of_ne {table : Table} {fd other : Nat} (different : other ≠ fd) :
    close table fd other = table other := Function.update_of_ne different _ _

theorem close_self (table : Table) (fd : Nat) : close table fd fd = none :=
  Function.update_self _ _ _

theorem Refers.open {table : Table} {fd pipe : Nat} (refers : Refers table fd pipe) :
    table fd ≠ none := by
  intro isClosed
  rcases refers with isRead | isWrite
  · rw [isClosed] at isRead
    cases isRead
  · rw [isClosed] at isWrite
    cases isWrite

theorem Refers.congr {table changed : Table} {fd pipe : Nat} (same : changed fd = table fd) :
    Refers changed fd pipe ↔ Refers table fd pipe := by
  rw [Refers, same, Refers]

theorem refers_close {table : Table} {fd other pipe : Nat} :
    Refers (close table fd) other pipe ↔ other ≠ fd ∧ Refers table other pipe := by
  constructor
  · intro refers
    have different : other ≠ fd := by
      rintro rfl
      exact refers.open (close_self table other)
    exact ⟨different, (Refers.congr (close_of_ne different)).mp refers⟩
  · rintro ⟨different, refers⟩
    exact (Refers.congr (close_of_ne different)).mpr refers

theorem Coherent.initial (opened : Nat → Option Nat) (unwaited : Finset Nat) :
    Coherent (.initial opened unwaited) where
  recorded := ⟨fun _ _ => rfl, nofun, nofun, fun _ isOpen => absurd rfl isOpen⟩
  positive := nofun
  refers := nofun
  sole := nofun
  numbered := by
    rintro fd pipe (isRead | isWrite)
    · rcases Option.map_eq_some_iff.mp isRead with ⟨_, _, isOther⟩
      cases isOther
    · rcases Option.map_eq_some_iff.mp isWrite with ⟨_, _, isOther⟩
      cases isOther

/-- A descriptor that is not open has no stream. -/
theorem Coherent.no_stream (coherent : Coherent process) {fd : Nat} (free : process.table fd = none) :
    process.streams fd = none := by
  cases isStream : process.streams fd with
  | none => rfl
  | some stream => exact absurd free (coherent.refers fd stream isStream).open

/-- Descriptors are opened and closed that have nothing to do with the streams. -/
theorem Coherent.elsewhere (coherent : Coherent process) {table : Table} {unwaited : Finset Nat}
    (kept : ∀ fd, process.streams fd ≠ none → table fd = process.table fd)
    (none_new : ∀ fd pipe, Refers table fd pipe → table fd = process.table fd) :
    Coherent { process with table := table, unwaited := unwaited } where
  recorded := { coherent.recorded with }
  positive := coherent.positive
  refers := fun fd stream isStream =>
    (Refers.congr (kept fd (by rw [isStream]; exact Option.some_ne_none _))).mpr
      (coherent.refers fd stream isStream)
  sole := fun fd stream other isStream refers =>
    coherent.sole fd stream other isStream ((Refers.congr (none_new other _ refers)).mp refers)
  numbered := fun fd pipe refers =>
    coherent.numbered fd pipe ((Refers.congr (none_new fd pipe refers)).mp refers)

theorem Coherent.close (coherent : Coherent process) {fd : Nat} (free : process.streams fd = none)
    (unwaited : Finset Nat) :
    Coherent { process with table := close process.table fd, unwaited := unwaited } := by
  apply coherent.elsewhere
  · intro other isStream
    apply close_of_ne
    rintro rfl
    exact isStream free
  · intro other pipe refers
    exact close_of_ne (refers_close.mp refers).1

theorem Coherent.allocate (coherent : Coherent process) (openMax : Nat) (calloc : Bool) :
    Coherent (allocate openMax process calloc) := by
  rw [Popen.allocate]
  split
  · rename_i notYet
    have noStreams := coherent.recorded.unallocated notYet
    have noChild : ∀ fd, process.childAt fd = 0 := by
      intro fd
      rw [Process.childAt, noStreams]
    exact {
      recorded := {
        unallocated := fun _ => noStreams
        size := by
          intro childpid isArray
          cases calloc with
          | false => cases isArray
          | true =>
              cases isArray
              exact List.length_replicate
        entry := by
          intro childpid isArray fd inside
          cases calloc with
          | false => cases isArray
          | true =>
              cases isArray
              rw [List.getElem?_replicate_of_lt inside]
              exact congrArg some (noChild fd).symm
        inside := fun fd isStream => absurd (noStreams fd) isStream }
      positive := coherent.positive
      refers := coherent.refers
      sole := coherent.sole
      numbered := coherent.numbered }
  · exact coherent

/-! ## The calls -/

section Pipe

variable {pfd : Nat × Nat}

theorem makePipe_first (different : pfd.1 ≠ pfd.2) :
    (makePipe process pfd).table pfd.1 = some (.readEnd (process.pipes + 1)) := by
  rw [makePipe]
  dsimp only
  rw [Function.update_of_ne different, Function.update_self]

theorem makePipe_second :
    (makePipe process pfd).table pfd.2 = some (.writeEnd (process.pipes + 1)) :=
  Function.update_self _ _ _

theorem makePipe_other {fd : Nat} (notFirst : fd ≠ pfd.1) (notSecond : fd ≠ pfd.2) :
    (makePipe process pfd).table fd = process.table fd := by
  rw [makePipe]
  dsimp only
  rw [Function.update_of_ne notSecond, Function.update_of_ne notFirst]

/-- The two descriptors refer to the new pipe, and the others to what they referred to. -/
theorem refers_makePipe (different : pfd.1 ≠ pfd.2) {fd pipe : Nat}
    (refers : Refers (makePipe process pfd).table fd pipe) :
    (fd = pfd.1 ∨ fd = pfd.2) ∧ pipe = process.pipes + 1 ∨
      fd ≠ pfd.1 ∧ fd ≠ pfd.2 ∧ Refers process.table fd pipe := by
  by_cases isFirst : fd = pfd.1
  · left
    refine ⟨Or.inl isFirst, ?_⟩
    rw [isFirst, Refers, makePipe_first different] at refers
    rcases refers with isRead | isWrite
    · cases isRead
      rfl
    · cases isWrite
  · by_cases isSecond : fd = pfd.2
    · left
      refine ⟨Or.inr isSecond, ?_⟩
      rw [isSecond, Refers, makePipe_second] at refers
      rcases refers with isRead | isWrite
      · cases isRead
      · cases isWrite
        rfl
    · right
      exact ⟨isFirst, isSecond, (Refers.congr (makePipe_other isFirst isSecond)).mp refers⟩

theorem Coherent.makePipe (coherent : Coherent process) (different : pfd.1 ≠ pfd.2)
    (first : process.table pfd.1 = none) (second : process.table pfd.2 = none) :
    Coherent (makePipe process pfd) := by
  have apart : ∀ fd stream, process.streams fd = some stream → fd ≠ pfd.1 ∧ fd ≠ pfd.2 := by
    intro fd stream isStream
    constructor
    · rintro rfl
      rw [coherent.no_stream first] at isStream
      cases isStream
    · rintro rfl
      rw [coherent.no_stream second] at isStream
      cases isStream
  exact {
    recorded := { coherent.recorded with }
    positive := coherent.positive
    refers := by
      intro fd stream isStream
      rcases apart fd stream isStream with ⟨notFirst, notSecond⟩
      exact (Refers.congr (makePipe_other notFirst notSecond)).mpr
        (coherent.refers fd stream isStream)
    sole := by
      intro fd stream other isStream refers
      rcases refers_makePipe different refers with ⟨_, isNew⟩ | ⟨_, _, before⟩
      · have old := coherent.numbered fd stream.pipe (coherent.refers fd stream isStream)
        omega
      · exact coherent.sole fd stream other isStream before
    numbered := by
      intro fd pipe refers
      have isCount : (Popen.makePipe process pfd).pipes = process.pipes + 1 := rfl
      rw [isCount]
      rcases refers_makePipe different refers with ⟨_, isNew⟩ | ⟨_, _, before⟩
      · exact Nat.le_of_eq isNew
      · exact Nat.le_succ_of_le (coherent.numbered fd pipe before) }

end Pipe

/-- A process that is about to call `fork`. -/
structure Prepared (before : Process) (pfd : Nat × Nat) (after : Process) : Prop where
  coherent : Coherent after
  different : pfd.1 ≠ pfd.2
  free : before.table pfd.1 = none ∧ before.table pfd.2 = none
  idle : after.streams pfd.1 = none ∧ after.streams pfd.2 = none
  first : after.table pfd.1 = some (.readEnd after.pipes)
  second : after.table pfd.2 = some (.writeEnd after.pipes)
  others : ∀ fd, fd ≠ pfd.1 → fd ≠ pfd.2 → after.table fd = before.table fd
  newest : ∀ fd, Refers after.table fd after.pipes → fd = pfd.1 ∨ fd = pfd.2
  streams : after.streams = before.streams
  unwaited : after.unwaited = before.unwaited
  inside : pfd.1 < after.maxfd ∧ pfd.2 < after.maxfd
  allocated : ∃ childpid, after.childpid = some childpid

theorem allocate_eq (openMax : Nat) (process : Process) (calloc : Bool) :
    ∃ childpid maxfd, allocate openMax process calloc =
        { process with childpid := childpid, maxfd := maxfd } ∧
      (childpid ≠ none ↔ process.childpid ≠ none ∨ calloc = true) ∧
      maxfd = if process.childpid = none then openMax else process.maxfd := by
  rw [allocate]
  by_cases notYet : process.childpid = none
  · rw [if_pos notYet, if_pos notYet]
    refine ⟨_, _, rfl, ?_, rfl⟩
    cases calloc with
    | false => exact ⟨fun some_ => absurd rfl some_, fun either => absurd notYet (by simpa using either)⟩
    | true => exact ⟨fun _ => Or.inr rfl, fun _ => Option.some_ne_none _⟩
  · rw [if_neg notYet, if_neg notYet]
    exact ⟨_, _, rfl, ⟨Or.inl, fun _ => notYet⟩, rfl⟩

/-- Up to the call of `fork` a failure leaves everything as it was. -/
theorem beforeFork_spec (coherent : Coherent process) {results : Results}
    (possible : Plausible process results) (openMax : Nat) (type : List Char) :
    (∃ failed failure, beforeFork openMax process type results = (failed, .error failure) ∧
      Coherent failed ∧ Unchanged process failed ∧ ¬ReachesFork openMax process type results) ∨
    ∃ prepared pfd, beforeFork openMax process type results = (prepared, .ok pfd) ∧
      Prepared process pfd prepared ∧ ReachesFork openMax process type results := by
  have still := coherent.allocate openMax results.calloc
  rcases allocate_eq openMax process results.calloc with ⟨childpid, maxfd, isReady, isSome, isMax⟩
  rw [isReady] at still
  rw [beforeFork, ReachesFork, isReady, ← isMax, ← isSome]
  by_cases wrong : type ≠ ['r'] ∧ type ≠ ['w']
  · rw [if_pos wrong]
    exact Or.inl ⟨process, _, rfl, coherent, ⟨rfl, rfl⟩, fun reaches =>
      reaches.1.elim wrong.1 wrong.2⟩
  · rw [if_neg wrong]
    dsimp only
    by_cases notYet : childpid = none
    · rw [if_pos notYet]
      exact Or.inl ⟨_, _, rfl, still, ⟨rfl, rfl⟩, fun reaches => reaches.2.1 notYet⟩
    · rw [if_neg notYet]
      have right_ : type = ['r'] ∨ type = ['w'] := by
        rw [← not_not (a := type = ['r'] ∨ type = ['w']), not_or]
        exact wrong
      cases isPipe : results.pipe with
      | none =>
          refine Or.inl ⟨_, _, rfl, still, ⟨rfl, rfl⟩, fun reaches => ?_⟩
          rcases reaches.2.2 with ⟨_, isSomePipe, _⟩
          cases isSomePipe
      | some pfd =>
          have different := possible.different pfd isPipe
          have first := possible.first pfd isPipe
          have second := possible.second pfd isPipe
          have piped := still.makePipe different first second
          dsimp only
          split
          · rename_i outside
            left
            refine ⟨_, _, rfl, ?_, ⟨?_, rfl⟩, fun reaches => ?_⟩
            · exact (piped.close (still.no_stream first) process.unwaited).close
                (still.no_stream second) process.unwaited
            · funext fd
              dsimp only
              by_cases isSecond : fd = pfd.2
              · rw [isSecond, close_self, second]
              · rw [close_of_ne isSecond]
                by_cases isFirst : fd = pfd.1
                · rw [isFirst, close_self, first]
                · rw [close_of_ne isFirst, makePipe_other isFirst isSecond]
            · rcases reaches.2.2 with ⟨_, isSomePipe, insideFirst, insideSecond⟩
              cases isSomePipe
              rcases outside with large | large
              · exact absurd insideFirst (Nat.not_lt.mpr large)
              · exact absurd insideSecond (Nat.not_lt.mpr large)
          · rename_i inside
            rw [not_or, Nat.not_le, Nat.not_le] at inside
            right
            refine ⟨_, pfd, rfl, ?_, right_, notYet, pfd, rfl, inside⟩
            exact {
              coherent := piped
              different := different
              free := ⟨first, second⟩
              idle := ⟨coherent.no_stream first, coherent.no_stream second⟩
              first := makePipe_first different
              second := makePipe_second
              others := fun fd notFirst notSecond => makePipe_other notFirst notSecond
              newest := by
                intro fd refers
                rcases refers_makePipe different refers with ⟨isNew, _⟩ | ⟨_, _, before⟩
                · exact isNew
                · exact absurd (still.numbered fd _ before) (Nat.not_succ_le_self _)
              streams := rfl
              unwaited := rfl
              inside := inside
              allocated := Option.ne_none_iff_exists'.mp notYet }

/-- One end of the new pipe is closed in the parent, and the other is kept. -/
structure Ends (process : Process) (pfd : Nat × Nat) (closed fd : Nat) : Prop where
  different : fd ≠ closed
  inside : fd < process.maxfd
  refers : Refers process.table fd process.pipes
  idle : process.streams fd = none ∧ process.streams closed = none
  newest : ∀ other, Refers process.table other process.pipes → other = fd ∨ other = closed
  member : (fd = pfd.1 ∧ closed = pfd.2) ∨ (fd = pfd.2 ∧ closed = pfd.1)

theorem Prepared.ends {before : Process} {pfd : Nat × Nat} (prepared : Prepared before pfd process)
    (type : List Char) :
    Ends process pfd (parentEnds type pfd).1 (parentEnds type pfd).2 := by
  rw [parentEnds]
  split
  · exact {
      different := prepared.different
      inside := prepared.inside.1
      refers := Or.inl prepared.first
      idle := prepared.idle
      newest := prepared.newest
      member := Or.inl ⟨rfl, rfl⟩ }
  · exact {
      different := prepared.different.symm
      inside := prepared.inside.2
      refers := Or.inr prepared.second
      idle := prepared.idle.symm
      newest := fun other refers => (prepared.newest other refers).symm
      member := Or.inr ⟨rfl, rfl⟩ }

/-- The entry of a descriptor is set together with its stream. -/
theorem Recorded.set (recorded : Recorded process) {childpid : List Nat}
    (isArray : process.childpid = some childpid) {fd pid : Nat} (stream : Option Stream)
    (isChild : (match stream with | none => 0 | some stream => stream.child) = pid)
    (inside : stream ≠ none → fd < process.maxfd) (table : Table) (unwaited : Finset Nat) :
    Recorded { process with
      unwaited := unwaited
      table := table
      childpid := some (childpid.set fd pid)
      streams := Function.update process.streams fd stream } := by
  have isLength := recorded.size childpid isArray
  refine { unallocated := (fun never => by cases never), size := ?_, entry := ?_, inside := ?_ }
  · intro array isSet
    cases isSet
    rw [List.length_set]
    exact isLength
  · intro array isSet other within
    cases isSet
    rw [Process.childAt]
    dsimp only
    by_cases same : other = fd
    · subst same
      rw [Function.update_self, List.getElem?_set_self (by rwa [isLength]), isChild]
    · rw [Function.update_of_ne same, List.getElem?_set_ne (Ne.symm same)]
      exact recorded.entry childpid isArray other within
  · intro other isStream
    dsimp only at isStream
    by_cases same : other = fd
    · rw [same, Function.update_self] at isStream
      rw [same]
      exact inside isStream
    · rw [Function.update_of_ne same] at isStream
      exact recorded.inside other isStream

/-- The child is recorded under the descriptor of the new stream. -/
theorem Ends.record {pfd : Nat × Nat} {closed fd pid : Nat} (ends : Ends process pfd closed fd)
    (coherent : Coherent process) {childpid : List Nat} (isArray : process.childpid = some childpid)
    (positive : 0 < pid) (unwaited : Finset Nat) :
    Coherent { process with
      unwaited := unwaited
      table := close process.table closed
      childpid := some (childpid.set fd pid)
      streams := Function.update process.streams fd (some ⟨pid, process.pipes⟩) } where
  recorded := coherent.recorded.set isArray (some ⟨pid, process.pipes⟩) rfl (fun _ => ends.inside) _ _
  positive := by
    intro other stream isStream
    dsimp only at isStream
    by_cases same : other = fd
    · rw [same, Function.update_self] at isStream
      cases isStream
      exact positive
    · rw [Function.update_of_ne same] at isStream
      exact coherent.positive other stream isStream
  refers := by
    intro other stream isStream
    dsimp only at isStream ⊢
    rw [refers_close]
    by_cases same : other = fd
    · rw [same, Function.update_self] at isStream
      cases isStream
      rw [same]
      exact ⟨ends.different, ends.refers⟩
    · rw [Function.update_of_ne same] at isStream
      refine ⟨?_, coherent.refers other stream isStream⟩
      rintro rfl
      rw [ends.idle.2] at isStream
      cases isStream
  sole := by
    intro other stream third isStream refers
    dsimp only at isStream refers
    rw [refers_close] at refers
    by_cases same : other = fd
    · rw [same, Function.update_self] at isStream
      cases isStream
      rw [same]
      exact (ends.newest third refers.2).resolve_right refers.1
    · rw [Function.update_of_ne same] at isStream
      exact coherent.sole other stream third isStream refers.2
  numbered := fun other pipe refers => coherent.numbered other pipe (refers_close.mp refers).2

/-- A call of `popen` keeps the streams in order, and a failure leaves nothing behind where it comes
before `fork`. -/
theorem popen_spec (coherent : Coherent process) {results : Results}
    (possible : Plausible process results) (openMax : Nat) (type : List Char) :
    (∃ after result, popen openMax process type results = some (after, result) ∧ Coherent after) ∧
      (Restores openMax process type results ↔
        (ReachesFork openMax process type results → results.fork ≠ none ∧ results.fdopen = true)) := by
  rw [Restores, popen]
  rcases beforeFork_spec coherent possible openMax type with
    ⟨failed, failure, ran, still, unchanged, notReached⟩ | ⟨prepared, pfd, ran, isPrepared, reaches⟩
  · rw [ran]
    refine ⟨⟨_, _, rfl, still⟩, fun _ reached => absurd reached notReached, fun _ => ?_⟩
    intro after other isResult
    cases isResult
    exact unchanged
  · rw [ran]
    have ends := isPrepared.ends type
    have isFree : process.table (parentEnds type pfd).2 = none := by
      rcases ends.member with ⟨isFirst, _⟩ | ⟨isSecond, _⟩
      · rw [isFirst]
        exact isPrepared.free.1
      · rw [isSecond]
        exact isPrepared.free.2
    have isOpen := ends.refers.open
    dsimp only
    cases isFork : results.fork with
    | none =>
        refine ⟨⟨_, _, rfl, isPrepared.coherent⟩, ?_, fun succeeds => absurd rfl (succeeds reaches).1⟩
        intro restores
        have same := (restores _ _ rfl).table
        rw [same] at isOpen
        exact absurd isFree isOpen
    | some pid =>
        have positive := possible.positive pid isFork
        dsimp only
        cases isStdio : results.fdopen with
        | false =>
            rw [if_pos rfl]
            refine ⟨⟨_, _, rfl, isPrepared.coherent.close ends.idle.2 _⟩, ?_, fun succeeds =>
              absurd (succeeds reaches).2 Bool.false_ne_true⟩
            intro restores
            have same := (restores _ _ rfl).table
            have stillOpen := congrFun same (parentEnds type pfd).2
            dsimp only at stillOpen
            rw [close_of_ne ends.different] at stillOpen
            rw [stillOpen] at isOpen
            exact absurd isFree isOpen
        | true =>
            rcases isPrepared.allocated with ⟨childpid, isArray⟩
            have inside : (parentEnds type pfd).2 < childpid.length := by
              rw [isPrepared.coherent.recorded.size childpid isArray]
              exact ends.inside
            rw [if_neg (by decide), isArray, Option.bind_eq_bind, Option.bind_some, if_pos inside]
            refine ⟨⟨_, _, rfl, ends.record isPrepared.coherent isArray positive _⟩, fun _ _ =>
              ⟨Option.some_ne_none _, rfl⟩, fun _ after failure isResult => ?_⟩
            cases isResult

/-- A stream is closed. -/
theorem Coherent.closeStream (coherent : Coherent process) {childpid : List Nat}
    (isArray : process.childpid = some childpid) (fd : Nat) (unwaited : Finset Nat) :
    Coherent { process with
      unwaited := unwaited
      table := Popen.close process.table fd
      childpid := some (childpid.set fd 0)
      streams := Function.update process.streams fd none } := by
  have older : ∀ other stream, Function.update process.streams fd none other = some stream →
      other ≠ fd ∧ process.streams other = some stream := by
    intro other stream isStream
    by_cases same : other = fd
    · rw [same, Function.update_self] at isStream
      cases isStream
    · rw [Function.update_of_ne same] at isStream
      exact ⟨same, isStream⟩
  exact {
    recorded := coherent.recorded.set isArray none rfl (fun isStream => absurd rfl isStream) _ _
    positive := fun other stream isStream =>
      coherent.positive other stream (older other stream isStream).2
    refers := by
      intro other stream isStream
      rcases older other stream isStream with ⟨different, before⟩
      exact refers_close.mpr ⟨different, coherent.refers other stream before⟩
    sole := fun other stream third isStream refers =>
      coherent.sole other stream third (older other stream isStream).2 (refers_close.mp refers).2
    numbered := fun other pipe refers => coherent.numbered other pipe (refers_close.mp refers).2 }

theorem pclose_spec (coherent : Coherent process) (fd : Nat) (fclose : Bool) (waitpid : Option Int) :
    ∃ after result, pclose process fd fclose waitpid = some (after, result) ∧ Coherent after := by
  rw [pclose]
  cases isArray : process.childpid with
  | none => exact ⟨_, _, rfl, coherent⟩
  | some childpid =>
      dsimp only
      by_cases outside : fd ≥ process.maxfd
      · rw [if_pos outside]
        exact ⟨_, _, rfl, coherent⟩
      · have inside := Nat.lt_of_not_le outside
        rw [if_neg outside, coherent.recorded.entry childpid isArray fd inside, Option.bind_eq_bind,
          Option.bind_some]
        by_cases isZero : process.childAt fd = 0
        · rw [if_pos isZero]
          exact ⟨_, _, rfl, coherent⟩
        · rw [if_neg isZero]
          cases fclose with
          | false =>
              exact ⟨_, _, rfl, coherent.closeStream isArray fd process.unwaited⟩
          | true =>
              cases waitpid with
              | none => exact ⟨_, _, rfl, coherent.closeStream isArray fd process.unwaited⟩
              | some stat => exact ⟨_, _, rfl, coherent.closeStream isArray fd _⟩

theorem Coherent.step (coherent : Coherent process) (openMax : Nat) {action : Action}
    (granted : Granted process action) :
    ∃ next, step openMax process action = some next ∧ Coherent next := by
  cases action with
  | popen type results =>
      rcases (popen_spec coherent granted openMax type).1 with ⟨after, result, ran, still⟩
      refine ⟨after, ?_, still⟩
      rw [Popen.step, ran]
      rfl
  | pclose fd fclose waitpid =>
      rcases pclose_spec coherent fd fclose waitpid with ⟨after, result, ran, still⟩
      refine ⟨after, ?_, still⟩
      rw [Popen.step, ran]
      rfl
  | elsewhere table unwaited =>
      exact ⟨_, rfl, coherent.elsewhere granted.1 granted.2⟩

end Coherent

/-- Whatever was called before, the streams are in order. -/
theorem coherent_of_history {openMax : Nat} {opened : Nat → Option Nat} {unwaited : Finset Nat}
    {actions : List Action}
    (granted : EveryStep (step openMax) Granted (.initial opened unwaited) actions) :
    ∃ process, actions.foldlM (step openMax) (.initial opened unwaited) = some process ∧
      Coherent process := by
  have progress : ∀ (process : Process) (_ : Unit) action, Coherent process →
      Granted process action → ∃ next, step openMax process action = some next ∧ Coherent next :=
    fun _ _ _ coherent isGranted => coherent.step openMax isGranted
  exact @exists_run_of_simulation _ _ _ _ Unit (fun process _ => Coherent process) (fun _ _ => ())
    progress _ _ () (.initial opened unwaited) granted

/-- In every state `childpid` tells the children of the open streams, and a call of `popen` that
fails leaves everything as it was exactly where neither `fork` nor `fdopen` fails. -/
theorem popen_restores_iff {openMax : Nat} {opened : Nat → Option Nat} {unwaited : Finset Nat}
    {actions : List Action}
    (granted : EveryStep (step openMax) Granted (.initial opened unwaited) actions) :
    ∃ process, actions.foldlM (step openMax) (.initial opened unwaited) = some process ∧
      Recorded process ∧ ∀ type results, Plausible process results →
        (Restores openMax process type results ↔
          (ReachesFork openMax process type results →
            results.fork ≠ none ∧ results.fdopen = true)) := by
  rcases coherent_of_history granted with ⟨process, ran, coherent⟩
  exact ⟨process, ran, coherent.recorded, fun type results possible =>
    (popen_spec coherent possible openMax type).2⟩

/-- Descriptors 0, 1 and 2 are open. -/
def threeOpen (fd : Nat) : Option Nat := if fd < 3 then some fd else none

theorem possible_alone {process : Process} {pfd : Nat × Nat} (different : pfd.1 ≠ pfd.2)
    (first : process.table pfd.1 = none) (second : process.table pfd.2 = none) {fork : Option Nat}
    (positive : ∀ pid ∈ fork, 0 < pid) (fresh : ∀ pid ∈ fork, pid ∉ process.unwaited)
    (calloc fdopen : Bool) : Plausible process ⟨calloc, some pfd, fork, fdopen⟩ where
  different := by
    intro _ isPipe
    cases isPipe
    exact different
  first := by
    intro _ isPipe
    cases isPipe
    exact first
  second := by
    intro _ isPipe
    cases isPipe
    exact second
  positive := positive
  fresh := fresh

/-- A stream is opened and closed. -/
theorem popen_restores_iff_once :
    ∃ process, [.popen ['r'] ⟨true, some (3, 4), some 100, true⟩, .pclose 3 true (some 0)].foldlM
        (step 16) (.initial threeOpen ∅) = some process ∧
      Recorded process ∧ ∀ type results, Plausible process results →
        (Restores 16 process type results ↔
          (ReachesFork 16 process type results → results.fork ≠ none ∧ results.fdopen = true)) := by
  apply popen_restores_iff
  refine ⟨possible_alone (by decide) rfl rfl ?_ ?_ true true,
    fun _ _ => ⟨trivial, fun _ _ => trivial⟩⟩
  · intro pid isPid
    cases isPid
    decide
  · exact fun pid _ => Finset.notMem_empty pid

/-- Where `fork` fails, both ends of the pipe stay open. -/
theorem popen_leaks_ends : Plausible (.initial threeOpen ∅) ⟨true, some (3, 4), none, true⟩ ∧
    ¬Restores 16 (.initial threeOpen ∅) ['r'] ⟨true, some (3, 4), none, true⟩ := by
  have noChild : ∀ pid : Nat, pid ∉ (none : Option Nat) := fun _ => Option.not_mem_none _
  refine ⟨possible_alone (by decide) rfl rfl (fun pid isPid => absurd isPid (noChild pid))
    (fun pid isPid => absurd isPid (noChild pid)) true true, fun restores => ?_⟩
  have same := congrFun (restores _ .fork rfl).table 3
  revert same
  decide

end Apue.Library.Popen
