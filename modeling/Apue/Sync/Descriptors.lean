import Apue.Sync.SimpleRsync
import Mathlib.Data.Finset.Insert

/-! # The descriptors of a process

The calls may have any outcome here. What counts is which descriptors are open.
-/

namespace Apue.Sync

open Apue.Foundation

/-- The numbers of the open files, and whether a call of `fstat` has failed. -/
structure Table where
  opened : Finset Nat
  fstatFailed : Bool

/-- A file is not longer than it was when it was opened, which may be any length. -/
def Plausible : (call : SysCall) → SysResponse call → Prop
  | .read descriptor offset count, response =>
      ∀ text : Bytes, response = some text → text.length ≤ min count (descriptor.length - offset)
  | .fread descriptor offset count, text => text.length ≤ min count (descriptor.length - offset)
  | .write _ _ text, response => ∀ written : Nat, response = some written → written ≤ text.length
  | _, _ => True

def SysCall.UsesTable : SysCall → Prop
  | .openRead _ => True
  | .openWrite _ => True
  | .close _ => True
  | .fstat _ => True
  | _ => False

/-- Every call may fail. A file that is opened gets a number that is free. -/
inductive Outcomes : (call : SysCall) → Table → SysResponse call → Table → Prop
  | openRead {path : Bytes} {before : Table} (descriptor : Descriptor)
      (free : descriptor.number ∉ before.opened) :
      Outcomes (.openRead path) before (some descriptor : Option Descriptor)
        { before with opened := insert descriptor.number before.opened }
  | openReadFails (path : Bytes) (before : Table) :
      Outcomes (.openRead path) before (none : Option Descriptor) before
  | openWrite {path : Bytes} {before : Table} (descriptor : Descriptor)
      (free : descriptor.number ∉ before.opened) :
      Outcomes (.openWrite path) before (some descriptor : Option Descriptor)
        { before with opened := insert descriptor.number before.opened }
  | openWriteFails (path : Bytes) (before : Table) :
      Outcomes (.openWrite path) before (none : Option Descriptor) before
  | close (descriptor : Descriptor) (before : Table) :
      Outcomes (.close descriptor) before ()
        { before with opened := before.opened.erase descriptor.number }
  | fstat (descriptor : Descriptor) (before : Table) (found : Option Stat) :
      Outcomes (.fstat descriptor) before found
        { before with fstatFailed := before.fstatFailed || found.isNone }
  | other {call : SysCall} {before : Table} {response : SysResponse call}
      (other : ¬ call.UsesTable) (credible : Plausible call response) :
      Outcomes call before response before

/-- Only what is open is closed, and the loops come to their ends. -/
def Permitted : SysCall → Table → Prop
  | .close descriptor, table => descriptor.number ∈ table.opened
  | .outOfRounds, _ => False
  | _, _ => True

section Tabled

variable {Value : Type} {post : Value → Table → Prop} {table : Table}

/-- In every run the calls are permitted, and the results have `post`. -/
abbrev Tabled (post : Value → Table → Prop) (program : Sys Value) (table : Table) : Prop :=
  program.Always Outcomes Permitted post table

/-- The table is what it was. -/
abbrev KeepsTable (program : Sys Value) : Prop :=
  ∀ table, Tabled (fun _ after => after = table) program table

theorem Tabled.call {call : SysCall} {rest : SysResponse call → Sys Value}
    (permitted : Permitted call table) (other : ¬ call.UsesTable)
    (continued : ∀ response, Plausible call response → Tabled post (rest response) table) :
    Tabled post (Program.perform call >>= rest) table := by
  apply Program.Always.call permitted
  intro response after answered
  cases answered with
  | other _ credible => exact continued response credible
  | openRead | openReadFails | openWrite | openWriteFails | close | fstat =>
      exact absurd trivial other

/-- A part that keeps the table comes before the rest. -/
theorem Tabled.front {Before : Type} {program : Sys Before} {rest : Before → Sys Value}
    (keeps : KeepsTable program) (continued : ∀ result, Tabled post (rest result) table) :
    Tabled post (program >>= rest) table := by
  apply Program.Always.bind
  apply (keeps table).mono
  rintro result _ rfl
  exact continued result

theorem Tabled.openRead {path : Bytes} {rest : Option Descriptor → Sys Value}
    (fails : Tabled post (rest none) table)
    (opens : ∀ descriptor, descriptor.number ∉ table.opened → Tabled post (rest (some descriptor))
      { table with opened := insert descriptor.number table.opened }) :
    Tabled post (Sys.openRead path >>= rest) table := by
  apply Program.Always.call trivial
  intro response after answered
  cases answered with
  | openRead descriptor free => exact opens descriptor free
  | openReadFails => exact fails
  | other other _ => exact absurd trivial other

theorem Tabled.openWrite {path : Bytes} {rest : Option Descriptor → Sys Value}
    (fails : Tabled post (rest none) table)
    (opens : ∀ descriptor, descriptor.number ∉ table.opened → Tabled post (rest (some descriptor))
      { table with opened := insert descriptor.number table.opened }) :
    Tabled post (Sys.openWrite path >>= rest) table := by
  apply Program.Always.call trivial
  intro response after answered
  cases answered with
  | openWrite descriptor free => exact opens descriptor free
  | openWriteFails => exact fails
  | other other _ => exact absurd trivial other

/-- What was opened last is closed. -/
theorem Tabled.closeLast {descriptor : Descriptor} {rest : Unit → Sys Value} {opened : Finset Nat}
    {fstatFailed : Bool} (free : descriptor.number ∉ opened)
    (continued : Tabled post (rest ()) ⟨opened, fstatFailed⟩) :
    Tabled post (Sys.close descriptor >>= rest) ⟨insert descriptor.number opened, fstatFailed⟩ := by
  constructor
  · exact Finset.mem_insert_self _ _
  · intro response after answered
    cases answered with
    | close =>
        dsimp only
        rw [Finset.erase_insert free]
        exact continued
    | other other _ => exact absurd trivial other

/-- What was opened first is closed. -/
theorem Tabled.closeFirst {first second : Descriptor} {rest : Unit → Sys Value}
    {opened : Finset Nat} {fstatFailed : Bool} (freeFirst : first.number ∉ opened)
    (freeSecond : second.number ∉ insert first.number opened)
    (continued : second.number ∉ opened →
      Tabled post (rest ()) ⟨insert second.number opened, fstatFailed⟩) :
    Tabled post (Sys.close first >>= rest)
      ⟨insert second.number (insert first.number opened), fstatFailed⟩ := by
  rw [Finset.mem_insert, not_or] at freeSecond
  rw [Finset.insert_comm]
  apply Tabled.closeLast
  · rw [Finset.mem_insert, not_or]
    exact ⟨Ne.symm freeSecond.1, freeFirst⟩
  · exact continued freeSecond.2

end Tabled

theorem Plausible.read {descriptor : Descriptor} {offset count : Nat} {text : Bytes}
    (credible : Plausible (.read descriptor offset count) (some text : Option Bytes)) :
    text.length ≤ descriptor.length - offset :=
  Nat.le_trans (credible text rfl) (Nat.min_le_right _ _)

theorem Plausible.fread {descriptor : Descriptor} {offset count : Nat} {text : Bytes}
    (credible : Plausible (.fread descriptor offset count) text) :
    text.length ≤ descriptor.length - offset :=
  Nat.le_trans credible (Nat.min_le_right _ _)

/-! ## Comparing and making directories -/

theorem getFileSize_keeps (path : Bytes) : KeepsTable (getFileSize path) := by
  intro table
  apply Tabled.call (by trivial) id
  intro found _
  cases found with
  | none => exact rfl
  | some found => exact rfl

theorem getFileMtime_keeps (path : Bytes) : KeepsTable (getFileMtime path) := by
  intro table
  apply Tabled.call (by trivial) id
  intro found _
  cases found with
  | none => exact rfl
  | some found => exact rfl

theorem compareContents_keeps (f1 f2 : Descriptor) :
    ∀ rounds offset, f1.length < offset + rounds → offset ≤ f1.length →
      KeepsTable (compareContents f1 f2 rounds offset)
  | 0, offset, enough, inside, _ => absurd enough (by omega)
  | rounds + 1, offset, enough, inside, table => by
      rw [compareContents]
      apply Tabled.call (by trivial) id
      intro buffer1 credible
      apply Tabled.call (by trivial) id
      intro buffer2 _
      split
      · exact rfl
      split
      · rename_i positive
        have within := credible.fread
        exact compareContents_keeps f1 f2 rounds _ (by omega) (by omega) table
      · exact rfl

theorem compareFiles_keeps (file1 file2 : Bytes) : KeepsTable (compareFiles file1 file2) := by
  intro table
  rw [compareFiles, fileExists]
  apply Tabled.call (by trivial) id
  intro isThere _
  split
  · exact rfl
  apply Tabled.front (getFileSize_keeps file1)
  intro size1
  apply Tabled.front (getFileSize_keeps file2)
  intro size2
  generalize (1024 * 1024 : Int) = threshold
  split
  · exact rfl
  apply Tabled.front (getFileMtime_keeps file1)
  intro mtime1
  apply Tabled.front (getFileMtime_keeps file2)
  intro mtime2
  split
  · exact rfl
  split
  · apply Tabled.openRead
    · apply Tabled.openRead
      · exact rfl
      · intro f2 free2
        exact Tabled.closeLast free2 rfl
    · intro f1 free1
      apply Tabled.openRead
      · exact Tabled.closeLast free1 rfl
      · intro f2 free2
        apply Tabled.front (compareContents_keeps f1 f2 _ 0 (by omega) (Nat.zero_le _))
        intro result
        apply Tabled.closeFirst free1 free2
        exact fun free => Tabled.closeLast free rfl
  · exact rfl

theorem mkdirs_keeps (paths : List Bytes) : KeepsTable (mkdirs paths) := by
  intro table
  induction paths with
  | nil => exact rfl
  | cons path paths hypothesis =>
      apply Tabled.call (by trivial) id
      intro errno _
      split
      · exact rfl
      · exact hypothesis

theorem createDirectory_keeps (path : Bytes) : KeepsTable (createDirectory path) := by
  intro table
  rw [createDirectory]
  apply Tabled.call (by trivial) id
  intro isThere _
  split
  · exact rfl
  dsimp only
  split
  · exact ⟨trivial, fun never => nomatch never⟩
  · exact mkdirs_keeps _ table

/-! ## Copying -/

theorem copyContents_keeps (source target : Descriptor) :
    ∀ rounds offset, source.length < offset + rounds → offset ≤ source.length →
      KeepsTable (copyContents source target rounds offset)
  | 0, offset, enough, inside, _ => absurd enough (by omega)
  | rounds + 1, offset, enough, inside, table => by
      rw [copyContents]
      apply Tabled.call (by trivial) id
      intro response credible
      split
      · exact rfl
      · exact rfl
      · rename_i buffer nonempty
        have within := credible.read
        have positive : 0 < buffer.length := List.length_pos_iff.mpr nonempty
        apply Tabled.call (by trivial) id
        intro written _
        split
        · exact rfl
        · exact copyContents_keeps source target rounds _ (by omega) (by omega) table

/-- The target is left open where `fstat` fails. -/
theorem copyFile_table (sourceFile targetFile : Bytes) (opened : Finset Nat) :
    Tabled (fun _ after => after.opened = opened ↔ after.fstatFailed = false)
      (copyFile sourceFile targetFile) ⟨opened, false⟩ := by
  rw [copyFile]
  apply Tabled.openRead
  · exact iff_of_true rfl rfl
  intro source freeSource
  apply Tabled.openWrite
  · exact Tabled.closeLast freeSource (iff_of_true rfl rfl)
  intro target freeTarget
  apply Tabled.front (copyContents_keeps source target _ 0 (by omega) (Nat.zero_le _))
  intro success
  split
  · apply Program.Always.call trivial
    intro response after answered
    cases answered with
    | other other _ => exact absurd trivial other
    | fstat =>
        cases response with
        | some found =>
            apply Tabled.closeLast freeTarget
            apply Tabled.call (by trivial) id
            intro timed _
            exact Tabled.closeLast freeSource (iff_of_true rfl rfl)
        | none =>
            apply Tabled.closeFirst freeSource freeTarget
            intro free
            apply iff_of_false
            · exact Finset.insert_ne_self.mpr free
            · exact nofun
  · exact Tabled.closeLast freeTarget (Tabled.closeLast freeSource (iff_of_true rfl rfl))

/-- A call of `sync_file` leaves the descriptors as they were exactly when no call of
`fstat` fails. It never closes what is not open. -/
theorem syncFile_table (sourceFile targetFile : Bytes) (dryRun : Bool) (opened : Finset Nat) :
    (syncFile sourceFile targetFile dryRun).Always Outcomes Permitted
      (fun _ after => after.opened = opened ↔ after.fstatFailed = false) ⟨opened, false⟩ := by
  have outcome : Tabled (fun _ after => after.opened = opened ↔ after.fstatFailed = false)
      (syncFileOutcome sourceFile targetFile dryRun) ⟨opened, false⟩ := by
    rw [syncFileOutcome]
    apply Tabled.front (compareFiles_keeps sourceFile targetFile)
    intro identical
    split
    · exact iff_of_true rfl rfl
    split
    · exact iff_of_true rfl rfl
    split
    · exact copyFile_table sourceFile targetFile opened
    · apply Tabled.front (createDirectory_keeps _)
      intro made
      split
      · exact copyFile_table sourceFile targetFile opened
      · exact iff_of_true rfl rfl
  rw [syncFile]
  apply Program.Always.bind
  apply outcome.mono
  intro outcome after counted
  apply Tabled.call (by trivial) id
  exact fun _ _ => counted

/-- The target is new, and `fstat` fails behind an empty copy. -/
theorem syncFile_leaks : ¬ (syncFile [97] [98] false).Always Outcomes (fun _ _ => True)
    (fun _ after => after.opened = {0, 1, 2}) ⟨{0, 1, 2}, false⟩ := by
  intro always
  have compared := always.2 false _ (.other id trivial)
  have opened := compared.2 _ _ (.openRead ⟨3, [], 0⟩ (by decide))
  have copying := opened.2 _ _ (.openWrite ⟨4, [], 0⟩ (by decide))
  have copied := copying.2 (some []) _ (.other id fun text isText => by cases isText; decide)
  have failed := copied.2 none _ (.fstat _ _ none)
  have closed := failed.2 _ _ (.close _ _)
  have finished : (insert 4 (insert 3 ({0, 1, 2} : Finset Nat))).erase 3 = {0, 1, 2} :=
    closed.2 () _ (.other id trivial)
  exact absurd finished (by decide)

end Apue.Sync
