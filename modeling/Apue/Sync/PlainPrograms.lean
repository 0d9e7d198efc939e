import Apue.Sync.SimpleRsync

/-! # Programs that only make system calls

The functions for one file or one directory do not go through a tree, and mark
nothing but the lines that a dry run prints.
-/

namespace Apue.Sync

open Apue.Foundation

/-- The calls of a function that is no recursion and hands no paths on. -/
def SysCall.Plain : SysCall → Prop
  | .descend _ _ => False
  | .handing _ _ _ _ => False
  | .finished _ => False
  | .tooDeep => False
  | _ => True

/-- Whatever the calls return, they are plain, and the result has `post`. -/
abbrev PlainProgram {Result : Type} (post : Result → Prop) (program : Sys Result) : Prop :=
  program.Always (fun _ (_ : Unit) _ _ => True) (fun call _ => call.Plain)
    (fun result _ => post result) ()

/-- Whatever the calls return, they are of one kind. -/
abbrev OnlyCalls {Result : Type} (kind : SysCall → Prop) (post : Result → Prop)
    (program : Sys Result) : Prop :=
  program.Always (fun _ (_ : Unit) _ _ => True) (fun call _ => kind call)
    (fun result _ => post result) ()

variable {Result Next : Type} {kind more : SysCall → Prop} {post : Result → Prop}

theorem OnlyCalls.call {call : SysCall} {rest : SysResponse call → Sys Result}
    (here : kind call) (answered : ∀ response, OnlyCalls kind post (rest response)) :
    OnlyCalls kind post (Program.perform call >>= rest) :=
  Program.Always.call here fun response _ _ => answered response

theorem OnlyCalls.bind {program : Sys Next} {rest : Next → Sys Result}
    (first : OnlyCalls kind (fun _ => True) program)
    (second : ∀ result, OnlyCalls kind post (rest result)) :
    OnlyCalls kind post (program >>= rest) :=
  (first.mono fun result _ _ => second result).bind

theorem OnlyCalls.close {descriptor : Descriptor} {rest : Unit → Sys Result}
    (here : kind (.close descriptor)) (continued : OnlyCalls kind post (rest ())) :
    OnlyCalls kind post (Sys.close descriptor >>= rest) :=
  OnlyCalls.call here fun _ => continued

theorem OnlyCalls.outOfRounds (here : kind .outOfRounds) :
    OnlyCalls kind post (Sys.outOfRounds : Sys Result) :=
  ⟨here, fun never => nomatch never⟩

theorem OnlyCalls.undefined (here : kind .undefined) :
    OnlyCalls kind post (Sys.undefined : Sys Result) :=
  ⟨here, fun never => nomatch never⟩

/-- What holds of every run holds among fewer steps of the calls that are made. -/
theorem OnlyCalls.mono_step {State : Type} {state : State} {program : Sys Result}
    {step fewer : (call : SysCall) → State → SysResponse call → State → Prop}
    {allowed : SysCall → State → Prop} {last : Result → State → Prop}
    (only : OnlyCalls kind post program) (always : program.Always step allowed last state)
    (implies : ∀ call, kind call → ∀ before response after,
      fewer call before response after → step call before response after) :
    program.Always fewer allowed last state := by
  induction program generalizing state with
  | done result => exact always
  | call call next hypothesis =>
      refine ⟨always.1, fun response after stepped => ?_⟩
      exact hypothesis response (only.2 response () trivial)
        (always.2 response after (implies call only.1 _ _ _ stepped))

theorem OnlyCalls.mono {program : Sys Result} (only : OnlyCalls kind post program)
    (implies : ∀ call, kind call → more call) : OnlyCalls more post program :=
  only.mono_allowed fun call _ => implies call

/-- The calls and the results are the same whatever the state is made of. -/
theorem PlainProgram.anywhere {program : Sys Result} (plain : PlainProgram post program)
    {State : Type} {step : (call : SysCall) → State → SysResponse call → State → Prop}
    (state : State) :
    program.Always step (fun call _ => call.Plain) (fun result _ => post result) state := by
  induction program generalizing state with
  | done result => exact plain
  | call call next hypothesis =>
      exact ⟨plain.1, fun response after _ => hypothesis response (plain.2 response () trivial) after⟩

/-! ## Programs without undefined behaviour -/

/-- The plain calls, but for the mark of undefined behaviour. -/
def SysCall.Basic : SysCall → Prop
  | .undefined => False
  | call => call.Plain

abbrev BasicProgram {Result : Type} (post : Result → Prop) (program : Sys Result) : Prop :=
  program.Always (fun _ (_ : Unit) _ _ => True) (fun call _ => call.Basic)
    (fun result _ => post result) ()

/-- The plain calls, but for `chown`. -/
def SysCall.Unowned : SysCall → Prop
  | .chown _ => False
  | call => call.Plain

theorem SysCall.Unowned.plain {call : SysCall} (unowned : call.Unowned) : call.Plain := by
  cases call with
  | chown path => exact unowned.elim
  | _ => exact unowned

theorem SysCall.Basic.plain {call : SysCall} (basic : call.Basic) : call.Plain := by
  cases call with
  | undefined => exact basic.elim
  | _ => exact basic

theorem OnlyCalls.plain {program : Sys Result} (only : OnlyCalls SysCall.Unowned post program) :
    PlainProgram post program :=
  only.mono fun _ unowned => unowned.plain

theorem BasicProgram.plain {program : Sys Result} (basic : BasicProgram post program) :
    PlainProgram post program :=
  basic.mono_allowed fun _ _ isBasic => isBasic.plain

theorem basic_compareContents (f1 f2 : Descriptor) (rounds offset : Nat) :
    BasicProgram (fun _ => True) (compareContents f1 f2 rounds offset) := by
  induction rounds generalizing offset with
  | zero => exact OnlyCalls.outOfRounds (by trivial)
  | succ rounds hypothesis =>
      apply OnlyCalls.call (by trivial)
      intro buffer1
      apply OnlyCalls.call (by trivial)
      intro buffer2
      split
      · trivial
      · split
        · exact hypothesis _
        · trivial

theorem basic_getFileSize (path : Bytes) : BasicProgram (fun _ => True) (getFileSize path) := by
  apply OnlyCalls.call (by trivial)
  intro found
  cases found with
  | none => trivial
  | some found => trivial

theorem basic_getFileMtime (path : Bytes) : BasicProgram (fun _ => True) (getFileMtime path) := by
  apply OnlyCalls.call (by trivial)
  intro found
  cases found with
  | none => trivial
  | some found => trivial

theorem basic_compareFiles (file1 file2 : Bytes) :
    BasicProgram (fun _ => True) (compareFiles file1 file2) := by
  apply OnlyCalls.call (by trivial)
  intro there
  split
  · trivial
  apply OnlyCalls.bind (basic_getFileSize file1)
  intro size1
  apply OnlyCalls.bind (basic_getFileSize file2)
  intro size2
  split
  · trivial
  apply OnlyCalls.bind (basic_getFileMtime file1)
  intro mtime1
  apply OnlyCalls.bind (basic_getFileMtime file2)
  intro mtime2
  split
  · trivial
  split
  · apply OnlyCalls.call (by trivial)
    intro f1
    apply OnlyCalls.call (by trivial)
    intro f2
    split
    · rename_i f1 f2
      apply OnlyCalls.bind (basic_compareContents f1 f2 _ _)
      intro result
      exact OnlyCalls.close (by trivial) (OnlyCalls.close (by trivial) trivial)
    · exact OnlyCalls.close (by trivial) trivial
    · exact OnlyCalls.close (by trivial) trivial
    · trivial
  · trivial

theorem OnlyCalls.mkdirs (here : ∀ path, kind (.mkdir path)) (paths : List Bytes) :
    OnlyCalls kind (fun _ => True) (mkdirs paths) := by
  induction paths with
  | nil => trivial
  | cons path paths hypothesis =>
      apply OnlyCalls.call (here path)
      intro errno
      split
      · trivial
      · exact hypothesis

theorem basic_copyContents (source target : Descriptor) (rounds offset : Nat) :
    BasicProgram (fun _ => True) (copyContents source target rounds offset) := by
  induction rounds generalizing offset with
  | zero => exact OnlyCalls.outOfRounds (by trivial)
  | succ rounds hypothesis =>
      apply OnlyCalls.call (by trivial)
      intro buffer
      split
      · trivial
      · trivial
      · apply OnlyCalls.call (by trivial)
        intro written
        split
        · trivial
        · exact hypothesis _

theorem basic_copyFile (sourceFile targetFile : Bytes) :
    BasicProgram (fun outcome => outcome ≠ .dryRun) (copyFile sourceFile targetFile) := by
  apply OnlyCalls.call (by trivial)
  intro opened
  split
  · exact Outcome.noConfusion
  apply OnlyCalls.call (by trivial)
  intro target
  split
  · exact OnlyCalls.close (by trivial) Outcome.noConfusion
  apply OnlyCalls.bind (basic_copyContents _ _ _ _)
  intro success
  split
  · apply OnlyCalls.call (by trivial)
    intro found
    split
    · exact OnlyCalls.close (by trivial) Outcome.noConfusion
    · apply OnlyCalls.close (by trivial)
      apply OnlyCalls.call (by trivial)
      intro timed
      exact OnlyCalls.close (by trivial) Outcome.noConfusion
  · exact OnlyCalls.close (by trivial) (OnlyCalls.close (by trivial) Outcome.noConfusion)

/-! ## Creating directories, and the whole -/

theorem plain_createDirectory (path : Bytes) :
    PlainProgram (fun _ => True) (createDirectory path) := by
  apply OnlyCalls.call (by trivial)
  intro there
  split
  · trivial
  dsimp only
  split
  · exact OnlyCalls.undefined (by trivial)
  · exact OnlyCalls.mkdirs (fun _ => trivial) _

/-- Only a dry run ends as one. -/
theorem plain_syncFileOutcome (sourceFile targetFile : Bytes) :
    PlainProgram (fun outcome => outcome ≠ .dryRun)
      (syncFileOutcome sourceFile targetFile false) := by
  apply OnlyCalls.bind (basic_compareFiles sourceFile targetFile).plain
  intro same
  split
  · exact Outcome.noConfusion
  rw [if_neg Bool.false_ne_true]
  split
  · exact (basic_copyFile _ _).plain
  · apply OnlyCalls.bind (plain_createDirectory _)
    intro there
    split
    · exact (basic_copyFile _ _).plain
    · exact Outcome.noConfusion

/-! ## The simple synchroniser -/

namespace SimpleRsync

theorem unowned_copyContents (srcFd dstFd : Descriptor) (rounds offset : Nat) :
    OnlyCalls SysCall.Unowned (fun _ => True) (SimpleRsync.copyContents srcFd dstFd rounds offset) := by
  induction rounds generalizing offset with
  | zero => exact OnlyCalls.outOfRounds (by trivial)
  | succ rounds hypothesis =>
      apply OnlyCalls.call (by trivial)
      intro buffer
      split
      · exact OnlyCalls.close (by trivial) (OnlyCalls.close (by trivial) trivial)
      · exact OnlyCalls.close (by trivial) (OnlyCalls.close (by trivial) trivial)
      · apply OnlyCalls.call (by trivial)
        intro written
        split
        · exact OnlyCalls.close (by trivial) (OnlyCalls.close (by trivial) trivial)
        · exact hypothesis _

theorem unowned_copyFileData (srcPath dstPath : Bytes) :
    OnlyCalls SysCall.Unowned (fun _ => True) (copyFileData srcPath dstPath) := by
  apply OnlyCalls.call (by trivial)
  intro srcFd
  split
  · trivial
  apply OnlyCalls.call (by trivial)
  intro dstFd
  split
  · exact OnlyCalls.close (by trivial) trivial
  · exact SimpleRsync.unowned_copyContents _ _ _ _

theorem plain_copyFileAttributes (srcPath dstPath : Bytes) :
    PlainProgram (fun _ => True) (copyFileAttributes srcPath dstPath) := by
  apply OnlyCalls.call (by trivial)
  intro srcStat
  split
  · trivial
  apply OnlyCalls.call (by trivial)
  intro moded
  split
  · trivial
  apply OnlyCalls.call (by trivial)
  intro timed
  split
  · trivial
  apply OnlyCalls.call (by trivial)
  intro errno
  split
  · trivial
  · trivial

theorem unowned_compareContents (fd1 fd2 : Descriptor) (rounds offset : Nat) :
    OnlyCalls SysCall.Unowned (fun _ => True) (SimpleRsync.compareContents fd1 fd2 rounds offset) := by
  induction rounds generalizing offset with
  | zero => exact OnlyCalls.outOfRounds (by trivial)
  | succ rounds hypothesis =>
      apply OnlyCalls.call (by trivial)
      intro buf1
      apply OnlyCalls.call (by trivial)
      intro buf2
      split
      · exact OnlyCalls.close (by trivial) (OnlyCalls.close (by trivial) trivial)
      cases buf1 with
      | none =>
          cases buf2 with
          | none => exact OnlyCalls.undefined (by trivial)
          | some buf2 => exact OnlyCalls.undefined (by trivial)
      | some buf1 =>
          cases buf2 with
          | none => exact OnlyCalls.undefined (by trivial)
          | some buf2 =>
              dsimp only
              split
              · exact OnlyCalls.close (by trivial) (OnlyCalls.close (by trivial) trivial)
              split
              · exact OnlyCalls.close (by trivial) (OnlyCalls.close (by trivial) trivial)
              · exact hypothesis _

theorem unowned_filesAreIdentical (file1 file2 : Bytes) :
    OnlyCalls SysCall.Unowned (fun _ => True) (filesAreIdentical file1 file2) := by
  apply OnlyCalls.call (by trivial)
  intro stat1
  split
  · trivial
  apply OnlyCalls.call (by trivial)
  intro stat2
  split
  · trivial
  split
  · trivial
  split
  · trivial
  apply OnlyCalls.call (by trivial)
  intro fd1
  apply OnlyCalls.call (by trivial)
  intro fd2
  split
  · exact SimpleRsync.unowned_compareContents _ _ _ _
  · exact OnlyCalls.close (by trivial) trivial
  · exact OnlyCalls.close (by trivial) trivial
  · trivial

theorem unowned_createDirectoryRecursive (path : Bytes) :
    OnlyCalls SysCall.Unowned (fun _ => True) (createDirectoryRecursive path) := by
  rw [createDirectoryRecursive]
  dsimp only
  split
  · exact OnlyCalls.undefined (by trivial)
  · apply OnlyCalls.bind (OnlyCalls.mkdirs (fun _ => trivial) _)
    intro made
    split
    · trivial
    · trivial

theorem plain_copyFile (srcPath dstPath : Bytes) :
    PlainProgram (fun result => result = 0 ∨ result = -1)
      (SimpleRsync.copyFile srcPath dstPath) := by
  rw [SimpleRsync.copyFile]
  split
  · exact OnlyCalls.undefined (by trivial)
  apply OnlyCalls.bind (unowned_createDirectoryRecursive _).plain
  intro created
  split
  · exact Or.inr rfl
  apply OnlyCalls.bind (unowned_copyFileData _ _).plain
  intro copied
  split
  · exact Or.inr rfl
  apply OnlyCalls.bind (plain_copyFileAttributes _ _)
  intro attributes
  split
  · exact Or.inr rfl
  · exact Or.inl rfl

theorem unowned_destinationIsIdentical (srcPath dstPath : Bytes) :
    OnlyCalls SysCall.Unowned (fun _ => True) (destinationIsIdentical srcPath dstPath) := by
  apply OnlyCalls.call (by trivial)
  intro dstStat
  split
  · trivial
  · exact unowned_filesAreIdentical _ _

theorem plain_syncFile (srcPath dstPath : Bytes) (dryRun : Bool) :
    PlainProgram (fun result => result = 0 ∨ result = -1)
      (SimpleRsync.syncFile srcPath dstPath dryRun) := by
  apply OnlyCalls.call (by trivial)
  intro srcStat
  split
  · exact Or.inr rfl
  apply OnlyCalls.bind (unowned_destinationIsIdentical _ _).plain
  intro identical
  split
  · exact Or.inl rfl
  split
  · exact OnlyCalls.call (by trivial) fun _ => Or.inl rfl
  · exact SimpleRsync.plain_copyFile _ _

end SimpleRsync

end Apue.Sync
