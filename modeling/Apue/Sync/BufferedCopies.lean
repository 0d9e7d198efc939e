import Apue.Sync.MultiProcessFiles
import Apue.Sync.Transfers

/-! # Copies through buffered streams

`sync_file` of `Multi_process_rsync_task/sync_util.c` copies with `fread` and
`fwrite`. When the bytes of a stream are written out is up to the library.
-/

namespace Apue.Sync.MultiProcess

open Apue.Foundation

def BUFFER_SIZE : Nat := 4096

/-! ## The functions -/

def compareContents (f1 f2 : Descriptor) : Nat → Nat → Sys Bool
  | 0, _ => Sys.outOfRounds
  | rounds + 1, offset => do
      let buffer1 ← Sys.fread f1 offset MultiProcess.BUFFER_SIZE
      let buffer2 ← Sys.fread f2 offset MultiProcess.BUFFER_SIZE
      if buffer1.length ≠ buffer2.length ∨ buffer1 ≠ buffer2 then
        return false
      if buffer1.length > 0 then
        compareContents f1 f2 rounds (offset + buffer1.length)
      else
        return true

def compareFiles (file1 file2 : Bytes) : Sys Bool := do
  if !(← fileExists file2) then return false
  let size1 ← getFileSize file1
  let size2 ← getFileSize file2
  if size1 ≠ size2 then return false
  let f1 ← Sys.openRead file1
  let f2 ← Sys.openRead file2
  match f1, f2 with
  | some f1, some f2 =>
      let result ← MultiProcess.compareContents f1 f2 (f1.length + 1) 0
      Sys.close f1
      Sys.close f2
      return result
  | some f1, none =>
      Sys.close f1
      return false
  | none, some f2 =>
      Sys.close f2
      return false
  | none, none => return false

/-- A stream that is written to, with the bytes that are still in its buffer. -/
structure OutStream where
  descriptor : Descriptor
  offset : Nat
  buffered : Bytes

/-- How many bytes `fwrite` writes out, with so many in the buffer and so many in
its argument. -/
abbrev Buffering : Type := Nat → Nat → Nat

/-- Writes out the first bytes of the buffer. All the calls of `write` for them are
one call here, and it is short where they fail behind some of the bytes. -/
def OutStream.flush (stream : OutStream) (count : Nat) : Sys (Bool × OutStream) :=
  let text := stream.buffered.take count
  if text = [] then return (true, stream)
  else do
    let written ← Sys.write stream.descriptor stream.offset text
    let length := written.getD 0
    return (written = some text.length, { stream with
      offset := stream.offset + length
      buffered := stream.buffered.drop length })

/-- Whether `fwrite` returns the length of its argument. -/
def OutStream.fwrite (buffering : Buffering) (stream : OutStream) (text : Bytes) :
    Sys (Bool × OutStream) :=
  OutStream.flush { stream with buffered := stream.buffered ++ text }
    (buffering stream.buffered.length text.length)

/-- The result of `fclose` tells whether the rest was written. -/
def OutStream.fclose (stream : OutStream) : Sys Bool := do
  let (flushed, _) ← stream.flush stream.buffered.length
  Sys.close stream.descriptor
  return flushed

/-- The loop of `sync_file`, with a bound on its rounds. -/
def copyContents (buffering : Buffering) (source : Descriptor) :
    Nat → Nat → OutStream → Sys (Bool × OutStream)
  | 0, _, _ => Sys.outOfRounds
  | rounds + 1, offset, target => do
      let buffer ← Sys.fread source offset MultiProcess.BUFFER_SIZE
      if buffer.length > 0 then
        let (accepted, target) ← target.fwrite buffering buffer
        if !accepted then return (false, target)
        copyContents buffering source rounds (offset + buffer.length) target
      else
        return (true, target)

/-- The part of `sync_file` that copies, once the directory is there. -/
def copyFile (buffering : Buffering) (sourceFile targetFile : Bytes) : Sys Bool := do
  match ← Sys.openRead sourceFile with
  | none => return false
  | some source =>
      match ← Sys.openWrite targetFile with
      | none =>
          Sys.close source
          return false
      | some target =>
          let (success, stream) ← MultiProcess.copyContents buffering source (source.length + 1) 0
            ⟨target, 0, []⟩
          Sys.close source
          let _ ← stream.fclose
          return success

def syncFile (buffering : Buffering) (sourceFile targetFile : Bytes) : Sys Bool := do
  if ← MultiProcess.compareFiles sourceFile targetFile then
    return true
  match beforeLastSlash targetFile with
  | none => MultiProcess.copyFile buffering sourceFile targetFile
  | some targetDir =>
      if ← createDirectory targetDir then
        MultiProcess.copyFile buffering sourceFile targetFile
      else
        return false

/-! ## What gets out of the buffer -/

/-- How many of the bytes of a piece a call of `write` takes. -/
def taken : WriteOutcome → Nat → Nat
  | .fails, _ => 0
  | .takes count, length => min count length

section Buffered

variable (transfers : Transfers) (buffering : Buffering) (data : Bytes)

/-- The offset of the source behind `k` rounds of the loop. -/
abbrev position (k : Nat) : Nat := transfers.offset MultiProcess.BUFFER_SIZE data k

/-- The calls of `write` and the bytes written out in `k` rounds of the loop, as long
as they do not fail. -/
def writtenOut : Nat → Option (Nat × Nat)
  | 0 => some (0, 0)
  | k + 1 => (writtenOut k).bind fun (writes, flushed) =>
      let count := min (buffering (position transfers data k - flushed)
        (position transfers data (k + 1) - position transfers data k))
        (position transfers data (k + 1) - flushed)
      if count = 0 then some (writes, flushed)
      else if taken (transfers.write writes) count = count then some (writes + 1, flushed + count)
      else none

/-- The loop goes on in the k-th round. -/
def Reads (k : Nat) : Prop :=
  transfers.read k ≠ .fails ∧ position transfers data k < data.length

/-- The loop ends with everything accepted, but the bytes do not all get to the
target: a call of `fread` has failed before the end, or `fclose` cannot write out what
is left in the buffer. -/
def LosesBytes : Prop :=
  ∃ k writes flushed, (∀ j < k, Reads transfers data j) ∧ ¬ Reads transfers data k ∧
    writtenOut transfers buffering data k = some (writes, flushed) ∧
    (position transfers data k < data.length ∨
      taken (transfers.write writes) (position transfers data k - flushed) <
        position transfers data k - flushed)

variable {transfers buffering data}

theorem taken_le (outcome : WriteOutcome) (length : Nat) : taken outcome length ≤ length := by
  cases outcome with
  | fails => exact Nat.zero_le _
  | takes count => exact Nat.min_le_right _ _

theorem writtenOut_le {k writes flushed : Nat}
    (out : writtenOut transfers buffering data k = some (writes, flushed)) :
    flushed ≤ position transfers data k := by
  induction k generalizing writes flushed with
  | zero =>
      cases out
      exact Nat.zero_le _
  | succ k hypothesis =>
      rw [writtenOut] at out
      rcases Option.bind_eq_some_iff.mp out with ⟨⟨before, sofar⟩, outBefore, next⟩
      have inside := hypothesis outBefore
      have grows : position transfers data k ≤ position transfers data (k + 1) :=
        Nat.le_add_right _ _
      dsimp only at next
      split at next
      · cases next
        omega
      · split at next
        · cases next
          omega
        · cases next

theorem writtenOut_none {k last : Nat} (behind : k ≤ last)
    (out : writtenOut transfers buffering data k = none) :
    writtenOut transfers buffering data last = none := by
  induction behind with
  | refl => exact out
  | step _ hypothesis => rw [writtenOut, hypothesis, Option.bind_none]

/-- The loop stops in one round only. -/
theorem reads_stops_once {k last : Nat} (reads : ∀ j < k, Reads transfers data j)
    (readsLast : ∀ j < last, Reads transfers data j) (stops : ¬ Reads transfers data k)
    (stopsLast : ¬ Reads transfers data last) : k = last := by
  rcases Nat.lt_trichotomy k last with before | same | behind
  · exact absurd (readsLast k before) stops
  · exact same
  · exact absurd (reads last behind) stopsLast

end Buffered

/-! ## The copy -/

section Copy

variable {transfers : Transfers} {buffering : Buffering} {source target : Bytes}
  {place there : Place} {file copy : RegularFile} {state : SysState} {Value : Type}
  {post : Value → Metered → Prop}

theorem transferred_fread {descriptor : Descriptor} {offset count : Nat} {before after : Metered}
    {data : Bytes} {response : Bytes} (found : before.system.dataOf descriptor = some data)
    (answered : Transferred transfers (.fread descriptor offset count) before response after) :
    response = ((transfers.read before.reads).returned ((data.drop offset).take count)).getD [] ∧
      after = { before with reads := before.reads + 1 } := by
  cases answered with
  | fread there =>
      rw [found] at there
      cases there
      exact ⟨rfl, rfl⟩
  | other other _ => exact absurd trivial other

theorem written_eq (outcome : WriteOutcome) {text : Bytes} (nonempty : text ≠ []) :
    outcome.written text = text.take (taken outcome text.length) ∧
      (outcome.returned text).getD 0 = taken outcome text.length ∧
      (outcome.returned text = some text.length ↔ taken outcome text.length = text.length) := by
  have positive := List.length_pos_iff.mpr nonempty
  cases outcome with
  | fails =>
      refine ⟨rfl, rfl, ?_⟩
      constructor
      · exact fun told => nomatch told
      · intro empty
        rw [taken] at empty
        omega
  | takes count => simp [WriteOutcome.written, WriteOutcome.returned, taken, List.take_eq_take_min]

/-- Writing out the first bytes of the buffer. -/
theorem flush_transfers (different : place ≠ there) {stream : OutStream} {count reads writes : Nat}
    {rest : Bool × OutStream → Sys Value} (isTarget : stream.descriptor.place = there)
    (atEnd : copy.data.length = stream.offset)
    (here : Writing source target place there file copy state)
    (nothing : stream.buffered.take count = [] →
      Transferring transfers post (rest (true, stream)) ⟨state, reads, writes⟩)
    (something : ∀ changed state, stream.buffered.take count ≠ [] →
      changed.data = copy.data ++ (stream.buffered.take count).take
        (taken (transfers.write writes) (stream.buffered.take count).length) →
      Writing source target place there file changed state →
      Transferring transfers post (rest
        (decide (taken (transfers.write writes) (stream.buffered.take count).length =
            (stream.buffered.take count).length), { stream with
          offset := stream.offset +
            taken (transfers.write writes) (stream.buffered.take count).length
          buffered := stream.buffered.drop
            (taken (transfers.write writes) (stream.buffered.take count).length) }))
        ⟨state, reads, writes + 1⟩) :
    Transferring transfers post (stream.flush count >>= rest) ⟨state, reads, writes⟩ := by
  rw [OutStream.flush]
  dsimp only
  split
  · rename_i empty
    exact nothing empty
  · rename_i nonempty
    subst isTarget
    have isThere := (Files.lookup_eq_some.mp here.writes).2
    rw [bind_assoc]
    apply Program.Always.call ⟨_, _, .write 0 isThere⟩
    intro written after answered
    rcases transferred_write isThere answered with ⟨told, changed, isChanged, rfl⟩
    rcases written_eq (transfers.write writes) nonempty with ⟨text, length, whole⟩
    have continued := something changed _ nonempty
      (by rw [isChanged, ← atEnd, pwrite_end, text]) (here.setNode (works_alone different) changed)
    rw [told]
    dsimp only
    rw [decide_eq_decide.mpr whole, length]
    exact continued

/-- What the stream holds behind `k` rounds, and what is in the target. -/
structure Streaming (transfers : Transfers) (data : Bytes) (there : Place) (k flushed : Nat)
    (stream : OutStream) (copy : RegularFile) : Prop where
  target : stream.descriptor.place = there
  offset : stream.offset = flushed
  inside : flushed ≤ position transfers data k
  buffered : stream.buffered = (data.take (position transfers data k)).drop flushed
  copied : copy.data = data.take flushed

theorem Streaming.buffered_length {data : Bytes} {k flushed : Nat} {stream : OutStream}
    (streaming : Streaming transfers data there k flushed stream copy) :
    stream.buffered.length = position transfers data k - flushed := by
  rw [streaming.buffered, List.length_drop, List.length_take_of_le (Transfers.offset_le _)]

/-- The next piece behind what is in the buffer. -/
theorem Streaming.append {data : Bytes} {k flushed : Nat} {stream : OutStream}
    (streaming : Streaming transfers data there k flushed stream copy) :
    stream.buffered ++ transfers.piece MultiProcess.BUFFER_SIZE data k (position transfers data k) =
      (data.take (position transfers data (k + 1))).drop flushed := by
  rw [streaming.buffered, ← Transfers.take_offset k, List.drop_append_of_le_length]
  rw [List.length_take_of_le (Transfers.offset_le _)]
  exact streaming.inside

theorem reads_iff {data : Bytes} (k : Nat) : Reads transfers data k ↔
    transfers.piece MultiProcess.BUFFER_SIZE data k (position transfers data k) ≠ [] := by
  constructor
  · exact fun reads => Transfers.piece_ne_nil (by decide) reads.1 reads.2
  · intro nonempty
    have positive : 0 < MultiProcess.BUFFER_SIZE := by decide
    rcases @Transfers.returned_cases transfers _ data positive k _ rfl with
      ⟨fails, returned⟩ | ⟨_, _, returned⟩ | ⟨reads, inside, _⟩
    · rw [Transfers.piece, returned] at nonempty
      exact absurd rfl nonempty
    · rw [Transfers.piece, returned] at nonempty
      exact absurd rfl nonempty
    · exact ⟨reads, inside⟩

/-- How the loop ends. -/
inductive StreamEnd (transfers : Transfers) (buffering : Buffering) (data : Bytes) (there : Place)
    (copy : RegularFile) (writes : Nat) : Bool × OutStream → Prop
  | ended {k flushed : Nat} {stream : OutStream} (reads : ∀ j < k, Reads transfers data j)
      (stops : ¬ Reads transfers data k)
      (out : writtenOut transfers buffering data k = some (writes, flushed))
      (streaming : Streaming transfers data there k flushed stream copy) :
      StreamEnd transfers buffering data there copy writes (true, stream)
  | failed {k : Nat} {stream : OutStream} (reads : ∀ j < k, Reads transfers data j)
      (out : writtenOut transfers buffering data k = none) (target : stream.descriptor.place = there)
      (atEnd : copy.data.length = stream.offset) :
      StreamEnd transfers buffering data there copy writes (false, stream)

/-- A call of `fwrite` for the next piece. -/
theorem fwrite_streams (different : place ≠ there) {k writes flushed reads : Nat}
    {stream : OutStream} {rest : Bool × OutStream → Sys Value}
    (out : writtenOut transfers buffering file.data k = some (writes, flushed))
    (streaming : Streaming transfers file.data there k flushed stream copy)
    (here : Writing source target place there file copy state)
    (accepted : ∀ writes flushed stream copy state,
      writtenOut transfers buffering file.data (k + 1) = some (writes, flushed) →
      Streaming transfers file.data there (k + 1) flushed stream copy →
      Writing source target place there file copy state →
      Transferring transfers post (rest (true, stream)) ⟨state, reads, writes⟩)
    (failed : ∀ writes (stream : OutStream) (copy : RegularFile) state,
      writtenOut transfers buffering file.data (k + 1) = none → stream.descriptor.place = there →
      copy.data.length = stream.offset → Writing source target place there file copy state →
      Transferring transfers post (rest (false, stream)) ⟨state, reads, writes⟩) :
    Transferring transfers post (stream.fwrite buffering
      (transfers.piece MultiProcess.BUFFER_SIZE file.data k (position transfers file.data k)) >>=
        rest) ⟨state, reads, writes⟩ := by
  have next : position transfers file.data (k + 1) = position transfers file.data k +
    (transfers.piece MultiProcess.BUFFER_SIZE file.data k
      (position transfers file.data k)).length := rfl
  have inside := streaming.inside
  have within : position transfers file.data (k + 1) ≤ file.data.length :=
    Transfers.offset_le (k + 1)
  have appended := streaming.append
  have held := streaming.buffered_length
  rw [OutStream.fwrite, appended, held]
  have asked : (transfers.piece MultiProcess.BUFFER_SIZE file.data k
      (position transfers file.data k)).length =
      position transfers file.data (k + 1) - position transfers file.data k := by
    omega
  rw [asked]
  have copyLength : copy.data.length = stream.offset := by
    rw [streaming.copied, streaming.offset, List.length_take_of_le (by omega)]
  generalize isWhole : (file.data.take (position transfers file.data (k + 1))).drop flushed = whole
  have wholeLength : whole.length = position transfers file.data (k + 1) - flushed := by
    rw [← isWhole, List.length_drop, List.length_take_of_le within]
  generalize isAsked : buffering (position transfers file.data k - flushed)
    (position transfers file.data (k + 1) - position transfers file.data k) = count
  have outNext : writtenOut transfers buffering file.data (k + 1) =
      if (whole.take count).length = 0 then some (writes, flushed)
      else if taken (transfers.write writes) (whole.take count).length = (whole.take count).length then
        some (writes + 1, flushed + (whole.take count).length)
      else none := by
    rw [writtenOut, out, Option.bind_some]
    dsimp only
    rw [isAsked, List.length_take, wholeLength]
  apply @flush_transfers transfers source target place there file copy state Value post different
    { stream with buffered := whole } count reads writes rest streaming.target copyLength here
  · intro empty
    dsimp only at empty
    apply accepted writes flushed _ copy state _ _ here
    · rw [outNext, if_pos (by rw [empty]; rfl)]
    · exact ⟨streaming.target, streaming.offset, by omega, isWhole.symm, streaming.copied⟩
  · intro changed state nonempty isChanged here
    dsimp only at nonempty isChanged ⊢
    rw [if_neg (by rwa [List.length_eq_zero_iff])] at outNext
    by_cases complete : taken (transfers.write writes) (whole.take count).length =
        (whole.take count).length
    · rw [if_pos complete] at outNext
      rw [complete, List.take_length] at isChanged
      rw [decide_eq_true complete, complete]
      have bound : (whole.take count).length ≤ whole.length := List.length_take_le' _ _
      apply accepted _ _ _ changed state outNext _ here
      refine ⟨streaming.target, ?_, by omega, ?_, ?_⟩
      · rw [streaming.offset]
      · rw [← isWhole, List.drop_drop]
      · rw [isChanged, streaming.copied, ← isWhole, List.drop_take, List.take_take, take_append_piece]
    · rw [if_neg complete] at outNext
      rw [decide_eq_false complete]
      refine failed _ _ changed state outNext ?_ ?_ here
      · exact streaming.target
      · dsimp only
        rw [isChanged, List.length_append, copyLength, List.length_take_of_le (taken_le _ _)]

/-- The loop of `sync_file`, from its k-th round on. -/
theorem copyContents_streams (different : place ≠ there) {number length : Nat} :
    ∀ rounds k writes flushed stream copy state,
      file.data.length < position transfers file.data k + rounds →
      (∀ j < k, Reads transfers file.data j) →
      writtenOut transfers buffering file.data k = some (writes, flushed) →
      Streaming transfers file.data there k flushed stream copy →
      Writing source target place there file copy state →
      Transferring transfers (fun result after => ∃ copy,
          StreamEnd transfers buffering file.data there copy after.writes result ∧
          Writing source target place there file copy after.system)
        (MultiProcess.copyContents buffering ⟨number, place, length⟩ rounds
          (position transfers file.data k) stream) ⟨state, k, writes⟩
  | 0, k, writes, flushed, stream, copy, state, enough, reads, out, streaming, here => by
      have inside : position transfers file.data k ≤ file.data.length := Transfers.offset_le k
      omega
  | rounds + 1, k, writes, flushed, stream, copy, state, enough, reads, out, streaming, here => by
      have sees : state.dataOf ⟨number, place, length⟩ = some file.data := dataOf_file here.reads
      rw [MultiProcess.copyContents]
      apply Program.Always.call ⟨_, _, .fread sees⟩
      intro buffer after answered
      rcases transferred_fread sees answered with ⟨isPiece, rfl⟩
      change buffer = transfers.piece MultiProcess.BUFFER_SIZE file.data k
        (position transfers file.data k) at isPiece
      subst isPiece
      by_cases goesOn : Reads transfers file.data k
      · have nonempty := (reads_iff k).mp goesOn
        have positive := List.length_pos_iff.mpr nonempty
        have readsNext : ∀ j < k + 1, Reads transfers file.data j := by
          intro j before
          rcases Nat.lt_succ_iff_lt_or_eq.mp before with earlier | rfl
          · exact reads j earlier
          · exact goesOn
        have inside : position transfers file.data k < position transfers file.data (k + 1) := by
          exact Nat.lt_add_of_pos_right positive
        rw [if_pos positive]
        apply fwrite_streams different out streaming here
        · intro writes flushed stream copy state out streaming here
          exact copyContents_streams different rounds (k + 1) writes flushed stream copy state
            (by omega) readsNext out streaming here
        · intro writes stream copy state out isTarget atEnd here
          exact ⟨copy, .failed readsNext out isTarget atEnd, here⟩
      · have empty : transfers.piece MultiProcess.BUFFER_SIZE file.data k
            (position transfers file.data k) = [] := by
          by_contra nonempty
          exact goesOn ((reads_iff k).mpr nonempty)
        rw [empty, if_neg (by simp)]
        exact ⟨copy, .ended reads goesOn out streaming, here⟩

/-- What `sync_file` returns, and what it leaves in the target. -/
inductive Copied (transfers : Transfers) (buffering : Buffering) (data : Bytes) :
    Bool → Bytes → Prop
  | ended {k writes flushed : Nat} (reads : ∀ j < k, Reads transfers data j)
      (stops : ¬ Reads transfers data k)
      (out : writtenOut transfers buffering data k = some (writes, flushed)) :
      Copied transfers buffering data true (data.take (flushed +
        taken (transfers.write writes) (position transfers data k - flushed)))
  | failed {k : Nat} (copied : Bytes) (reads : ∀ j < k, Reads transfers data j)
      (out : writtenOut transfers buffering data k = none) :
      Copied transfers buffering data false copied

theorem fclose_streams (different : place ≠ there) {result : Bool × OutStream} {reads writes : Nat}
    (ended : StreamEnd transfers buffering file.data there copy writes result)
    (here : Writing source target place there file copy state) :
    Transferring transfers (fun _ after => ∃ copy : RegularFile,
        Copied transfers buffering file.data result.1 copy.data ∧
        after.system.lookup target = some (there, .regular copy))
      result.2.fclose ⟨state, reads, writes⟩ := by
  rw [OutStream.fclose]
  cases ended with
  | @ended k flushed stream readsAll stops out streaming =>
      have copyLength : copy.data.length = stream.offset := by
        rw [streaming.copied, streaming.offset, List.length_take_of_le
          (streaming.inside.trans (Transfers.offset_le k))]
      have held := streaming.buffered_length
      apply flush_transfers different streaming.target copyLength here
      · intro empty
        rw [List.take_length] at empty
        apply Transferring.close
        refine ⟨copy, ?_, here.writes⟩
        have copied := Copied.ended readsAll stops out
        rw [empty, List.length_nil] at held
        have none := taken_le (transfers.write writes) 0
        rw [← held, Nat.le_zero.mp none, Nat.add_zero, ← streaming.copied] at copied
        exact copied
      · intro changed state _ isChanged here
        rw [List.take_length] at isChanged
        apply Transferring.close
        refine ⟨changed, ?_, here.writes⟩
        have copied := Copied.ended readsAll stops out
        have same : changed.data = file.data.take (flushed + taken (transfers.write writes)
            (position transfers file.data k - flushed)) := by
          have bound := taken_le (transfers.write writes) (position transfers file.data k - flushed)
          have inside := streaming.inside
          have within : position transfers file.data k ≤ file.data.length := Transfers.offset_le k
          rw [isChanged, held, streaming.copied, streaming.buffered, List.drop_take, List.take_take,
            take_append_piece, Nat.min_eq_left bound, List.length_take_of_le]
          rw [List.length_drop]
          omega
        rw [← same] at copied
        exact copied
  | @failed k stream readsAll out isTarget atEnd =>
      have failed : ∀ bytes, Copied transfers buffering file.data false bytes :=
        fun bytes => .failed bytes readsAll out
      apply flush_transfers different isTarget atEnd here
      · intro _
        exact Transferring.close ⟨copy, failed _, here.writes⟩
      · intro changed state _ _ here
        exact Transferring.close ⟨changed, failed _, here.writes⟩

/-- `sync_file` from the opening of the two files on. -/
theorem copyFile_streams (different : place ≠ there)
    (reads : state.lookup source = some (place, .regular file))
    (resolved : state.files.resolve state.cwd target = some there)
    (notDirectory : state.files.isDirectory there = false) :
    Transferring transfers (fun result after => ∃ copy : RegularFile,
        Copied transfers buffering file.data result copy.data ∧
        after.system.lookup target = some (there, .regular copy))
      (MultiProcess.copyFile buffering source target) ⟨state, 0, 0⟩ := by
  rw [MultiProcess.copyFile]
  apply Transferring.openRead reads
  intro number1
  apply Transferring.openWrite different reads resolved notDirectory
  intro number2 copy after empty here
  have enough : file.data.length < position transfers file.data 0 +
      ((nodeStat (.regular file)).size.toNat + 1) := by
    change file.data.length < 0 + ((file.data.length : Int).toNat + 1)
    omega
  have start : Streaming transfers file.data there 0 0 ⟨⟨number2, there, 0⟩, 0, []⟩ copy :=
    ⟨rfl, rfl, Nat.zero_le _, rfl, empty⟩
  apply Program.Always.bind
  apply (copyContents_streams different _ 0 0 0 _ copy _ enough (fun _ before => nomatch before)
    rfl start here).mono
  rintro ⟨success, stream⟩ ⟨between, readsSoFar, writesSoFar⟩ ⟨copy, ended, here⟩
  apply Transferring.close
  apply Program.Always.bind
  exact fclose_streams different ended here

/-! ## What the result is worth -/

theorem Copied.loses {data copied : Bytes} {result : Bool}
    (ended : Copied transfers buffering data result copied)
    (loses : LosesBytes transfers buffering data) : result = true ∧ copied ≠ data := by
  rcases loses with ⟨k, writes, flushed, reads, stops, out, lost⟩
  cases ended with
  | @ended last writesLast flushedLast readsLast stopsLast outLast =>
      cases reads_stops_once reads readsLast stops stopsLast
      rw [out] at outLast
      cases outLast
      refine ⟨rfl, fun whole => ?_⟩
      have lengths := congrArg List.length whole
      have bound := taken_le (transfers.write writes) (position transfers data k - flushed)
      have inside := writtenOut_le out
      have within : position transfers data k ≤ data.length := Transfers.offset_le k
      rw [List.length_take] at lengths
      omega
  | @failed last copied readsLast outLast =>
      rcases Nat.lt_or_ge k last with before | behind
      · exact absurd (readsLast k before) stops
      · rw [writtenOut_none behind outLast] at out
        cases out

theorem Copied.whole {data copied : Bytes}
    (ended : Copied transfers buffering data true copied)
    (keeps : ¬ LosesBytes transfers buffering data) : copied = data := by
  cases ended with
  | @ended last writes flushed reads stops out =>
      have bound := taken_le (transfers.write writes) (position transfers data last - flushed)
      have inside := writtenOut_le out
      apply List.take_of_length_le
      by_contra short
      exact keeps ⟨last, writes, flushed, reads, stops, out, by omega⟩

/-- Where bytes are lost, there is a run that returns 1 with another target. -/
theorem not_whole_of_loses (different : place ≠ there)
    (reads : state.lookup source = some (place, .regular file))
    (resolved : state.files.resolve state.cwd target = some there)
    (notDirectory : state.files.isDirectory there = false)
    (loses : LosesBytes transfers buffering file.data) :
    ¬ (MultiProcess.copyFile buffering source target).Always (Transferred transfers)
        (fun _ _ => True) (fun result after => result = true → ∃ there copy,
          after.system.lookup target = some (there, .regular copy) ∧ copy.data = file.data)
        ⟨state, 0, 0⟩ := by
  intro always
  have copied := @copyFile_streams transfers buffering _ _ _ _ _ _ different reads resolved
    notDirectory
  rcases (copied.and always).exists_run (fun _ _ allowed => allowed.1) with
    ⟨result, after, _, ⟨copy, ended, found⟩, right⟩
  rcases ended.loses loses with ⟨returned, short⟩
  rcases right returned with ⟨there', copy', found', whole⟩
  rw [found] at found'
  cases found'
  exact short whole

/-- However the streams are buffered, `sync_file` returns 1 for a whole copy only,
unless a call of `fread` fails before the end or `fclose` cannot write out the rest. -/
theorem copyFile_returns_whole_iff (different : place ≠ there)
    (reads : state.lookup source = some (place, .regular file))
    (resolved : state.files.resolve state.cwd target = some there)
    (notDirectory : state.files.isDirectory there = false) :
    (MultiProcess.copyFile buffering source target).Always (Transferred transfers)
        (fun _ _ => True) (fun result after => result = true → ∃ there copy,
          after.system.lookup target = some (there, .regular copy) ∧ copy.data = file.data)
        ⟨state, 0, 0⟩ ↔
      ¬ LosesBytes transfers buffering file.data := by
  constructor
  · intro always loses
    exact not_whole_of_loses different reads resolved notDirectory loses always
  · intro keeps
    have copied := @copyFile_streams transfers buffering _ _ _ _ _ _ different reads resolved
      notDirectory
    apply (copied.mono_allowed fun _ _ _ => trivial).mono
    rintro result after ⟨copy, ended, found⟩ rfl
    exact ⟨there, copy, found, ended.whole keeps⟩

/-- The library writes nothing out before the stream is closed. -/
theorem copyFile_returns_whole_iff_unbuffered :
    (MultiProcess.copyFile (fun _ _ => 0) [47, 97] [47, 98]).Always
        (Transferred ⟨fun _ => .gives 2, fun _ => .takes 5, true⟩) (fun _ _ => True)
        (fun result after => result = true → ∃ there copy,
          after.system.lookup [47, 98] = some (there, .regular copy) ∧ copy.data = threeBytes.data)
        ⟨Sync.oneFile, 0, 0⟩ ↔
      ¬ LosesBytes ⟨fun _ => .gives 2, fun _ => .takes 5, true⟩ (fun _ _ => 0) threeBytes.data :=
  @copyFile_returns_whole_iff _ _ _ _ [[97]] [[98]] _ _ (by decide) rfl rfl rfl

/-- `fclose` cannot write out the three bytes, and `sync_file` returns 1 with an empty
target. -/
theorem copyFile_returns_early :
    ¬ (MultiProcess.copyFile (fun _ _ => 0) [47, 97] [47, 98]).Always
        (Transferred ⟨fun _ => .gives 3, fun _ => .fails, true⟩) (fun _ _ => True)
        (fun result after => result = true → ∃ there copy,
          after.system.lookup [47, 98] = some (there, .regular copy) ∧ copy.data = threeBytes.data)
        ⟨Sync.oneFile, 0, 0⟩ := by
  apply @not_whole_of_loses _ _ _ _ [[97]] [[98]] _ _ (by decide) rfl rfl rfl
  refine ⟨1, 0, 0, ?_, ?_, rfl, Or.inr (by decide)⟩
  · intro j before
    rw [Nat.lt_one_iff.mp before]
    exact ⟨ReadOutcome.noConfusion, by decide⟩
  · rintro ⟨_, inside⟩
    exact absurd inside (by decide)

end Copy

end Apue.Sync.MultiProcess
