import Apue.Sync.PairedReads
import Apue.Sync.Tasks

/-! # A file in the hands of a child

`sync_file` of the multi-process synchroniser among other children that leave the file
and its target alone. When the streams write out their bytes is left open.
-/

namespace Apue.Sync.MultiProcess

open Apue.Foundation

/-- What `compare_files` returns for a file and what the other path leads to. -/
def identical (file : RegularFile) (node : Node) : Bool :=
  (nodeStat (.regular file)).size = (nodeStat node).size ∧ file.data = nodeData node

/-- What `compare_files` returns, depending on what the second path leads to. -/
def comparison (file : RegularFile) : Option (Place × Node) → Bool
  | none => false
  | some found => MultiProcess.identical file found.2

section Calls

variable {conduct : Conduct SysCall SysState} {holds : SysState → Prop} {state : SysState}
  {Value : Type} {post : Value → SysState → Prop}

/-- The loop of a comparison finds out whether the rest is the same. -/
theorem compareStreams_follows (looks : Looks conduct holds) {size : Nat} (positive : 0 < size)
    {f1 f2 : Descriptor} {data1 data2 : Bytes}
    (sees1 : ∀ state, holds state → (state.dataOf f1).getD [] = data1)
    (sees2 : ∀ state, holds state → (state.dataOf f2).getD [] = data2) :
    ∀ rounds offset state, data1.length < offset + rounds → offset ≤ data1.length →
      holds state → conduct.Follows Answers
        (fun result after => result = decide (data1.drop offset = data2.drop offset) ∧ holds after)
        (compareStreams size f1 f2 rounds offset) state
  | 0, offset, state, enough, inside, here => absurd enough (by omega)
  | rounds + 1, offset, state, enough, inside, here => by
      rw [compareStreams]
      apply looks.fread sees1 here
      intro _ here
      apply looks.fread sees2 here
      intro state here
      split
      · rename_i differ
        refine ⟨(decide_eq_false fun whole => ?_).symm, here⟩
        rw [whole] at differ
        simp at differ
      rename_i same
      simp only [ne_eq, not_or, not_not] at same
      split
      · rename_i more
        rw [decide_eq_decide.mpr (drop_eq_iff same.2)]
        apply compareStreams_follows looks positive sees1 sees2 rounds
        · omega
        · rw [List.length_take, List.length_drop] at more ⊢
          omega
        · exact here
      · rename_i empty
        have none1 : (data1.drop offset).take size = [] := List.eq_nil_of_length_eq_zero (by omega)
        have none2 := none1
        rw [same.2] at none2
        refine ⟨(decide_eq_true ?_).symm, here⟩
        rw [take_eq_nil positive none1, take_eq_nil positive none2]

/-- `compare_files` is the comparison of what the two paths lead to. -/
theorem compareFiles_follows (looks : Looks conduct holds) {source target : Bytes} {place : Place}
    {file : RegularFile} {found : Option (Place × Node)}
    (seesSource : ∀ state, holds state → state.lookup source = some (place, .regular file))
    (seesTarget : ∀ state, holds state → state.lookup target = found) (here : holds state) :
    conduct.Follows Answers
      (fun result after => result = MultiProcess.comparison file found ∧ holds after)
      (MultiProcess.compareFiles source target) state := by
  rw [MultiProcess.compareFiles, fileExists]
  cases found with
  | none =>
      apply looks.access (fun state holds => by rw [seesTarget state holds]) here
      intro state here
      exact ⟨rfl, here⟩
  | some found =>
      rcases found with ⟨there, node⟩
      apply looks.access (fun state holds => by rw [seesTarget state holds]) here
      intro state here
      apply getFileSize_follows looks seesSource here
      intro state here
      apply getFileSize_follows looks seesTarget here
      intro state here
      rw [comparison, MultiProcess.identical]
      split
      · rename_i differ
        exact ⟨(decide_eq_false fun same => differ same.1).symm, here⟩
      rename_i sizes
      rw [ne_eq, not_not] at sizes
      apply looks.openRead seesSource here
      intro number1 state here
      apply looks.openRead seesTarget here
      intro number2 state here
      apply Conduct.Follows.bind
      rw [MultiProcess.compareContents_eq]
      have enough : file.data.length < 0 + ((nodeStat (.regular file)).size.toNat + 1) := by
        change file.data.length < 0 + ((file.data.length : Int).toNat + 1)
        omega
      have compared : conduct.Follows Answers (fun result after =>
          result = decide (file.data.drop 0 = (nodeData node).drop 0) ∧ holds after)
          (compareStreams MultiProcess.BUFFER_SIZE
            ⟨number1, place, (nodeStat (.regular file)).size.toNat⟩
            ⟨number2, there, (nodeStat node).size.toNat⟩
            ((nodeStat (.regular file)).size.toNat + 1) 0) state :=
        compareStreams_follows looks (by decide)
          (fun state holds => dataOf_of_lookup (seesSource state holds))
          (fun state holds => dataOf_of_lookup (seesTarget state holds)) _ 0 state enough
          (Nat.zero_le _) here
      apply Program.Always.mono compared
      rintro result state ⟨rfl, here⟩
      apply looks.close here
      intro state here
      apply looks.close here
      intro state here
      refine ⟨?_, here⟩
      rw [List.drop_zero, List.drop_zero, decide_eq_decide]
      exact ⟨fun same => ⟨sizes, same⟩, fun both => both.2⟩

/-! ## The copy -/

variable {source target : Bytes} {place there : Place} {file copy : RegularFile}

/-- What is in the buffer of a stream is the next part of the source. -/
structure Buffers (data : Bytes) (there : Place) (offset : Nat) (stream : OutStream)
    (copy : RegularFile) : Prop where
  place : stream.descriptor.place = there
  inside : stream.offset ≤ offset
  copied : copy.data = data.take stream.offset
  buffered : stream.buffered = (data.take offset).drop stream.offset

/-- Writing out the first bytes of the buffer. -/
theorem flush_follows (works : Works conduct source target place there file) {offset : Nat}
    {stream : OutStream} (count : Nat) {rest : Bool × OutStream → Sys Value}
    (buffers : Buffers file.data there offset stream copy)
    (here : Writing source target place there file copy state)
    (continued : ∀ next copy state, next.buffered = stream.buffered.drop count →
      Buffers file.data there offset next copy →
      Writing source target place there file copy state →
      conduct.Follows Answers post (rest (true, next)) state) :
    conduct.Follows Answers post (stream.flush count >>= rest) state := by
  rw [OutStream.flush]
  dsimp only
  split
  · rename_i empty
    apply continued stream copy state _ buffers here
    rw [List.take_eq_nil_iff] at empty
    rcases empty with rfl | empty
    · rw [List.drop_zero]
    · rw [empty, List.drop_nil]
  · rename_i nonempty
    rw [bind_assoc]
    rcases stream with ⟨⟨number, descriptorPlace, length⟩, sofar, buffered⟩
    rcases buffers with ⟨rfl, inside, copied, isBuffered⟩
    dsimp only at nonempty isBuffered copied inside ⊢
    have isText : buffered.take count =
        (file.data.drop sofar).take (min count (offset - sofar)) := by
      rw [isBuffered, List.drop_take, List.take_take]
    have lengths : (buffered.take count).length =
        min (min count (offset - sofar)) (file.data.length - sofar) := by
      rw [isText, List.length_take, List.length_drop]
    have positive := List.length_pos_iff.mpr nonempty
    apply works.write (by rw [copied, List.length_take_of_le (by omega)]) here
    intro changed state appended here
    rw [Option.getD_some, decide_eq_true rfl]
    apply continued _ changed state _ _ here
    · dsimp only
      rw [List.length_take]
      rcases Nat.le_total count buffered.length with enough | short
      · rw [Nat.min_eq_left enough]
      · rw [Nat.min_eq_right short, List.drop_length, List.drop_of_length_le short]
    · constructor
      · rfl
      · dsimp only
        omega
      · dsimp only
        rw [appended, copied, isText, take_append_piece]
      · dsimp only
        rw [isBuffered, List.drop_drop]

/-- A call of `fwrite` for the next piece of the source. -/
theorem fwrite_follows (works : Works conduct source target place there file) {offset count : Nat}
    {stream : OutStream} (buffering : Buffering) {rest : Bool × OutStream → Sys Value}
    (within : offset ≤ file.data.length) (buffers : Buffers file.data there offset stream copy)
    (here : Writing source target place there file copy state)
    (continued : ∀ next copy state, Buffers file.data there
        (offset + ((file.data.drop offset).take count).length) next copy →
      Writing source target place there file copy state →
      conduct.Follows Answers post (rest (true, next)) state) :
    conduct.Follows Answers post
      (stream.fwrite buffering ((file.data.drop offset).take count) >>= rest) state := by
  rw [OutStream.fwrite]
  apply flush_follows works _ _ here
  · exact fun next copy state _ buffers here => continued next copy state buffers here
  · rcases buffers with ⟨isPlace, inside, copied, isBuffered⟩
    refine ⟨isPlace, Nat.le_trans inside (Nat.le_add_right _ _), copied, ?_⟩
    dsimp only
    have bound : stream.offset ≤ (file.data.take offset).length := by
      rw [List.length_take_of_le within]
      exact inside
    rw [isBuffered, ← take_append_piece, List.drop_append_of_le_length bound]

/-- The loop of `sync_file` takes in the whole source. -/
theorem copyContents_follows (works : Works conduct source target place there file)
    (buffering : Buffering) {number length : Nat} :
    ∀ rounds offset stream copy state, file.data.length < offset + rounds →
      offset ≤ file.data.length → Buffers file.data there offset stream copy →
      Writing source target place there file copy state →
      conduct.Follows Answers (fun result after => result.1 = true ∧ ∃ copy,
          Buffers file.data there file.data.length result.2 copy ∧
          Writing source target place there file copy after)
        (MultiProcess.copyContents buffering ⟨number, place, length⟩ rounds offset stream) state
  | 0, offset, stream, copy, state, enough, inside, buffers, here => absurd enough (by omega)
  | rounds + 1, offset, stream, copy, state, enough, inside, buffers, here => by
      have sees : ∀ state, Writing source target place there file copy state →
          (state.dataOf ⟨number, place, length⟩).getD [] = file.data := by
        intro state writing
        rw [dataOf_file writing.reads]
        rfl
      rw [MultiProcess.copyContents]
      apply (works.looks copy).fread sees here
      intro state here
      have pieceLength : ((file.data.drop offset).take MultiProcess.BUFFER_SIZE).length ≤
          file.data.length - offset := by
        rw [List.length_take, List.length_drop]
        exact Nat.min_le_right _ _
      split
      · apply fwrite_follows works buffering inside buffers here
        intro next copy state buffers here
        dsimp only
        rw [if_neg (by decide)]
        exact copyContents_follows works buffering rounds _ next copy state (by omega) (by omega)
          buffers here
      · rename_i empty
        have nothing : (file.data.drop offset).take MultiProcess.BUFFER_SIZE = [] :=
          List.eq_nil_of_length_eq_zero (by omega)
        have atEnd := take_eq_nil (by decide) nothing
        rw [List.drop_eq_nil_iff] at atEnd
        have same : offset = file.data.length := Nat.le_antisymm inside atEnd
        rw [same] at buffers
        exact ⟨rfl, copy, buffers, here⟩

/-- Behind the copy the target has the bytes of the source. -/
theorem copyFile_follows (works : Works conduct source target place there file)
    (looks : Looks conduct holds) (buffering : Buffering)
    (seesSource : ∀ state, holds state → state.lookup source = some (place, .regular file))
    (destination : ∀ state, holds state → Path.destination state.cwd target = there)
    (possible : conduct.answered (.openWrite target) → ∀ state, holds state →
      state.files.resolve state.cwd target = some there ∧ state.files.isDirectory there = false)
    (here : holds state) :
    conduct.Follows Answers (fun result after => result = true ∧ ∃ copy : RegularFile,
        copy.data = file.data ∧ Writing source target place there file copy after)
      (MultiProcess.copyFile buffering source target) state := by
  rw [MultiProcess.copyFile]
  apply looks.openRead seesSource here
  intro number1 state here
  apply works.openWrite looks seesSource destination possible here
  intro number2 copy state empty here
  have enough : file.data.length < 0 + ((nodeStat (.regular file)).size.toNat + 1) := by
    change file.data.length < 0 + ((file.data.length : Int).toNat + 1)
    omega
  have buffers : Buffers file.data there 0 ⟨⟨number2, there, 0⟩, 0, []⟩ copy := by
    refine ⟨rfl, Nat.le_refl 0, ?_, rfl⟩
    rw [empty]
    rfl
  apply Conduct.Follows.bind
  apply Program.Always.mono (copyContents_follows works buffering _ 0 _ copy state enough
    (Nat.zero_le _) buffers here)
  rintro ⟨accepted, stream⟩ state ⟨isAccepted, copy, buffers, here⟩
  dsimp only at isAccepted buffers ⊢
  apply (works.looks copy).close here
  intro state here
  rw [OutStream.fclose, bind_assoc]
  apply flush_follows works _ buffers here
  intro next copy state drained buffers here
  apply (works.looks copy).close here
  intro state here
  refine ⟨isAccepted, copy, ?_, here⟩
  have nothing := buffers.buffered
  rw [drained, List.drop_length, List.take_length] at nothing
  rw [buffers.copied]
  exact List.take_of_length_le (List.drop_eq_nil_iff.mp nothing.symm)

end Calls

/-! ## The call of a child -/

theorem comparison_copy {file copy : RegularFile} (copied : copy.data = file.data) (place : Place) :
    MultiProcess.comparison file (some (place, .regular copy)) = true := by
  apply decide_eq_true
  refine ⟨?_, copied.symm⟩
  change ((_ : Nat) : Int) = ((_ : Nat) : Int)
  rw [copied]

/-- The multi-process synchroniser copies the bytes of a file. -/
def multiProcess : Synchroniser where
  comparison := MultiProcess.comparison
  copies := fun file copy => copy.data = file.data
  missing := fun _ => rfl
  same := MultiProcess.comparison_copy

section Child

variable {base state after : SysState} {task : Task} {total : Prop}

/-- `sync_file` settles its file, whatever the other children do meanwhile. -/
theorem syncFile_follows (ready : Ready base task) (buffering : Buffering)
    (possible : total → CanBeOpened base task) (here : Spares task base state) :
    (task.conduct (multiProcess.Outdated base task) total).Follows Answers
      (fun result after => result = true ∧ multiProcess.Settled base task after)
      (MultiProcess.syncFile buffering task.sourcePath task.targetPath) state := by
  have looks := Task.looks base (multiProcess.Outdated base task) total task
  rw [MultiProcess.syncFile]
  apply Conduct.Follows.bind
  apply Program.Always.mono (MultiProcess.compareFiles_follows looks (fun state => ready.source)
    (fun state => ready.lookup_target) here)
  rintro result between ⟨rfl, spared⟩
  split
  · rename_i same
    exact ⟨rfl, Or.inl ⟨fun outdated => Bool.noConfusion (outdated.symm.trans same), spared⟩⟩
  rename_i outdated
  rw [Bool.not_eq_true] at outdated
  rcases ready.parent with ⟨front, isFront, nonempty, made⟩
  rw [isFront]
  dsimp only
  apply Conduct.Follows.bind
  apply Program.Always.mono (createDirectory_follows looks nonempty
    (fun state spared => spared.made made) spared)
  rintro _ last ⟨rfl, sparedLast⟩
  rw [if_pos rfl]
  apply Program.Always.mono (MultiProcess.copyFile_follows (ready.works outdated) looks buffering
    (fun state => ready.source) (fun state spared => by rw [spared.sameCwd]; exact ready.destination)
    (fun isTotal state => (possible isTotal).spared) sparedLast)
  rintro outcome after ⟨isTrue, copy, isData, writing⟩
  exact ⟨isTrue, Or.inr ⟨outdated, writing.opened, copy, isData, writing.writes⟩⟩

end Child

end Apue.Sync.MultiProcess
