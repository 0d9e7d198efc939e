import Apue.Sync.Descriptors
import Apue.Sync.Transfers

/-! # The copy of the simple synchroniser

What `copy_file_data` returns and leaves in the destination, for all results of `read`
and `write`.
-/

namespace Apue.Sync

open Apue.Foundation

/-- A run of the loop that comes to the end has stopped nowhere before. -/
theorem Transfers.ReadsToEnd.stops {transfers : Transfers} {size : Nat} {data : Bytes} {k : Nat}
    (readsToEnd : transfers.ReadsToEnd size data) (goesOn : ∀ j < k, transfers.GoesOn size data j)
    (stops : ¬ transfers.GoesOn size data k) :
    transfers.read k ≠ .fails ∧ transfers.offset size data k = data.length := by
  rcases readsToEnd with ⟨last, goesOnLast, reads, atEnd⟩
  have stopsLast : ¬ transfers.GoesOn size data last := by
    intro goes
    exact absurd goes.inside (by omega)
  cases Transfers.stops_once goesOn goesOnLast stops stopsLast
  exact ⟨reads, atEnd⟩

namespace SimpleRsync

/-- What `copy_file_data` returns is true of the bytes in the destination. -/
structure CopyEnd (transfers : Transfers) (data : Bytes) (result : Int) (copied : Bytes) : Prop where
  returns : result = 0 ∨ result = -1
  succeeds : result = 0 ↔ transfers.ReadsToEnd BUFFER_SIZE data
  whole : result = 0 → copied = data
  isPrefix : copied <+: data

section Copy

variable {transfers : Transfers} {source target : Bytes} {place there : Place}
  {file copy : RegularFile} {state : SysState}

/-- The loop stops in its k-th round, before the end. -/
theorem CopyEnd.stopped {data copied : Bytes} {k : Nat}
    (goesOn : ∀ j < k, transfers.GoesOn BUFFER_SIZE data j)
    (stops : ¬ transfers.GoesOn BUFFER_SIZE data k)
    (early : transfers.read k = .fails ∨ transfers.offset BUFFER_SIZE data k < data.length)
    (isPrefix : copied <+: data) : CopyEnd transfers data (-1) copied where
  returns := Or.inr rfl
  succeeds := by
    constructor
    · intro succeeded
      cases succeeded
    · intro readsToEnd
      rcases readsToEnd.stops goesOn stops with ⟨reads, atEnd⟩
      rcases early with fails | inside
      · exact absurd fails reads
      · omega
  whole := by
    intro succeeded
    cases succeeded
  isPrefix := isPrefix

/-- The loop of `copy_file_data`. -/
theorem copyContents_transfers (different : place ≠ there) {number1 number2 length1 length2 : Nat}
    {rounds : Nat} (enough : file.data.length < rounds) (empty : copy.data = [])
    (here : Writing source target place there file copy state) :
    Transferring transfers (fun result after => ∃ copy : RegularFile,
        CopyEnd transfers file.data result copy.data ∧
        Writing source target place there file copy after.system)
      (copyContents ⟨number1, place, length1⟩ ⟨number2, there, length2⟩ rounds 0) ⟨state, 0, 0⟩ := by
  have start : CopiedRounds transfers source target place there file BUFFER_SIZE 0 copy state :=
    ⟨fun _ before => absurd before (Nat.not_lt_zero _), empty, here⟩
  have enoughLeft : file.data.length < transfers.offset BUFFER_SIZE file.data 0 + rounds := by
    rw [Transfers.offset, Nat.zero_add]
    exact enough
  apply copyLoop_transfers (by decide) different (fun _ _ => rfl) _ _ _ rounds 0 copy state
    enoughLeft start
  · intro k copy state copied fails
    apply Transferring.close
    apply Transferring.close
    exact ⟨copy, .stopped copied.goesOn (fun goes => goes.reads fails) (Or.inl fails) copied.isPrefix,
      copied.here⟩
  · intro k copy state copied reads atEnd
    apply Transferring.close
    apply Transferring.close
    have whole : copy.data = file.data := by rw [copied.sofar, atEnd, List.take_length]
    exact ⟨copy, ⟨Or.inl rfl, iff_of_true rfl ⟨k, copied.goesOn, reads, atEnd⟩, fun _ => whole,
      copied.isPrefix⟩, copied.here⟩
  · intro k copy state goesOn _ inside stops isPrefix here
    apply Transferring.close
    apply Transferring.close
    exact ⟨copy, .stopped goesOn stops (Or.inr inside) isPrefix, here⟩

theorem copyFileData_transfers (different : place ≠ there)
    (reads : state.lookup source = some (place, .regular file))
    (resolved : state.files.resolve state.cwd target = some there)
    (notDirectory : state.files.isDirectory there = false) :
    Transferring transfers (fun result after => ∃ copy : RegularFile,
        CopyEnd transfers file.data result copy.data ∧
        after.system.lookup target = some (there, .regular copy))
      (copyFileData source target) ⟨state, 0, 0⟩ := by
  rw [copyFileData]
  apply Transferring.openRead reads
  intro number1
  apply Transferring.openWrite different reads resolved notDirectory
  intro number2 copy after empty here
  have enough : file.data.length < (nodeStat (.regular file)).size.toNat + 1 :=
    Nat.lt_succ_self _
  apply (copyContents_transfers different enough empty here).mono
  intro result between copied
  rcases copied with ⟨copy, ended, here⟩
  exact ⟨copy, ended, here.writes⟩

end Copy

/-! ## The descriptors -/

/-- The loop closes both files, however it ends. -/
theorem copyContents_table {srcFd dstFd : Descriptor} {opened : Finset Nat} {fstatFailed : Bool}
    (freeSrc : srcFd.number ∉ opened) (freeDst : dstFd.number ∉ insert srcFd.number opened) :
    ∀ rounds offset, srcFd.length < offset + rounds → offset ≤ srcFd.length →
      Tabled (fun _ after => after = ⟨opened, fstatFailed⟩)
        (copyContents srcFd dstFd rounds offset)
        ⟨insert dstFd.number (insert srcFd.number opened), fstatFailed⟩
  | 0, offset, enough, inside => absurd enough (by omega)
  | rounds + 1, offset, enough, inside => by
      have closes : ∀ result : Int, Tabled (fun _ after => after = ⟨opened, fstatFailed⟩)
          (do Sys.close srcFd; Sys.close dstFd; return result)
          ⟨insert dstFd.number (insert srcFd.number opened), fstatFailed⟩ := by
        intro result
        apply Tabled.closeFirst freeSrc freeDst
        exact fun free => Tabled.closeLast free rfl
      rw [copyContents]
      apply Tabled.call (by trivial) id
      intro response credible
      split
      · exact closes (-1)
      · exact closes 0
      · rename_i buffer nonempty
        have within := credible.read
        have positive : 0 < buffer.length := List.length_pos_iff.mpr nonempty
        apply Tabled.call (by trivial) id
        intro written _
        split
        · exact closes (-1)
        · exact copyContents_table freeSrc freeDst rounds _ (by omega) (by omega)

theorem copyFileData_keeps (source target : Bytes) : KeepsTable (copyFileData source target) := by
  intro table
  rw [copyFileData]
  apply Tabled.openRead
  · exact rfl
  intro srcFd freeSrc
  apply Tabled.openWrite
  · exact Tabled.closeLast freeSrc rfl
  · intro dstFd freeDst
    exact copyContents_table freeSrc freeDst _ 0 (by omega) (Nat.zero_le _)

/-- For all results of `read` and `write`, `copy_file_data` tells whether the destination
has the bytes of the source, and it closes what it opens. -/
theorem copyFileData_right (transfers : Transfers) {source target : Bytes} {place there : Place}
    {file : RegularFile} {state : SysState} (different : place ≠ there)
    (reads : state.lookup source = some (place, .regular file))
    (resolved : state.files.resolve state.cwd target = some there)
    (notDirectory : state.files.isDirectory there = false) :
    (copyFileData source target).Always (Transferred transfers)
        (fun call between => ∃ response after, Transferred transfers call between response after)
        (fun result after => ∃ copy : RegularFile,
          CopyEnd transfers file.data result copy.data ∧
          after.system.lookup target = some (there, .regular copy)) ⟨state, 0, 0⟩ ∧
      ∀ table, (copyFileData source target).Always Outcomes Permitted
        (fun _ after => after = table) table :=
  ⟨copyFileData_transfers different reads resolved notDirectory, copyFileData_keeps source target⟩

/-- Pieces of two bytes, and the second is not written whole. -/
theorem copyFileData_right_short :
    (copyFileData [47, 97] [47, 98]).Always
        (Transferred ⟨fun _ => .gives 2, fun k => .takes (2 - 2 * k), true⟩)
        (fun call between => ∃ response after,
          Transferred ⟨fun _ => .gives 2, fun k => .takes (2 - 2 * k), true⟩ call between response after)
        (fun result after => ∃ copy : RegularFile,
          CopyEnd ⟨fun _ => .gives 2, fun k => .takes (2 - 2 * k), true⟩ threeBytes.data result
            copy.data ∧
          after.system.lookup [47, 98] = some ([[98]], .regular copy)) ⟨oneFile, 0, 0⟩ ∧
      ∀ table, (copyFileData [47, 97] [47, 98]).Always Outcomes Permitted
        (fun _ after => after = table) table :=
  @copyFileData_right _ _ _ [[97]] [[98]] _ _ (by decide) rfl rfl rfl

end SimpleRsync

end Apue.Sync
