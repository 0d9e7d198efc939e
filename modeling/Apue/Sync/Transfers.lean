import Apue.Sync.PartialCopies

/-! # Copies with given results of the transfers

What `read`, `write` and `fstat` return while a file is copied is an input here.
The other calls succeed.
-/

namespace Apue.Sync

open Apue.Foundation

/-- The result of a call of `read`. As long as there are bytes, it returns one of
them at least. -/
inductive ReadOutcome
  | fails
  | gives (count : Nat)
  deriving DecidableEq

inductive WriteOutcome
  | fails
  | takes (count : Nat)
  deriving DecidableEq

def ReadOutcome.returned : ReadOutcome → Bytes → Option Bytes
  | .fails, _ => none
  | .gives count, text => some (text.take (max 1 count))

def WriteOutcome.returned : WriteOutcome → Bytes → Option Nat
  | .fails, _ => none
  | .takes count, text => some (min count text.length)

def WriteOutcome.written : WriteOutcome → Bytes → Bytes
  | .fails, _ => []
  | .takes count, text => text.take count

/-- The results of the calls, one after the other. A call of `fread` that fails
returns what it has got until then. -/
structure Transfers where
  read : Nat → ReadOutcome
  write : Nat → WriteOutcome
  fstat : Bool

/-- The files, and how many of the results were used. -/
structure Metered where
  system : SysState
  reads : Nat
  writes : Nat

def SysCall.Transfer : SysCall → Prop
  | .read _ _ _ => True
  | .fread _ _ _ => True
  | .write _ _ _ => True
  | .fstat _ => True
  | _ => False

/-- The answers with the given results. -/
inductive Transferred (transfers : Transfers) :
    (call : SysCall) → Metered → SysResponse call → Metered → Prop
  | read {descriptor : Descriptor} {offset count : Nat} {before : Metered} {data : Bytes}
      (found : before.system.dataOf descriptor = some data) :
      Transferred transfers (.read descriptor offset count) before
        ((transfers.read before.reads).returned ((data.drop offset).take count))
        { before with reads := before.reads + 1 }
  | fread {descriptor : Descriptor} {offset count : Nat} {before : Metered} {data : Bytes}
      (found : before.system.dataOf descriptor = some data) :
      Transferred transfers (.fread descriptor offset count) before
        (((transfers.read before.reads).returned ((data.drop offset).take count)).getD [])
        { before with reads := before.reads + 1 }
  | write {descriptor : Descriptor} {offset : Nat} {text : Bytes} {before : Metered}
      {file : RegularFile} (now : Int)
      (found : before.system.files descriptor.place = some (.regular file)) :
      Transferred transfers (.write descriptor offset text) before
        ((transfers.write before.writes).returned text)
        { before with
          system := before.system.setNode descriptor.place (.regular { file with
            data := pwrite file.data offset ((transfers.write before.writes).written text)
            mtime := now })
          writes := before.writes + 1 }
  | fstat {descriptor : Descriptor} {before : Metered} {node : Node}
      (found : before.system.files descriptor.place = some node) :
      Transferred transfers (.fstat descriptor) before
        (if transfers.fstat then some (nodeStat node) else none : Option Stat) before
  | other {call : SysCall} {before : Metered} {response : SysResponse call} {after : SysState}
      (other : ¬ call.Transfer) (answered : Answers call before.system response after) :
      Transferred transfers call before response { before with system := after }

namespace Transfers

variable (transfers : Transfers) (size : Nat) (data : Bytes)

/-- What the k-th call for `size` bytes returns at an offset. -/
def piece (k offset : Nat) : Bytes :=
  ((transfers.read k).returned ((data.drop offset).take size)).getD []

/-- The offset in front of the k-th call of `read`. -/
def offset : Nat → Nat
  | 0 => 0
  | k + 1 => offset k + (transfers.piece size data k (offset k)).length

/-- The k-th round of the loop copies a piece, and the loop goes on. -/
structure GoesOn (k : Nat) : Prop where
  reads : transfers.read k ≠ .fails
  inside : transfers.offset size data k < data.length
  writes : (transfers.write k).returned (transfers.piece size data k (transfers.offset size data k)) =
    some (transfers.piece size data k (transfers.offset size data k)).length

/-- The calls of `read` come to the end, and every call of `write` is complete. -/
def ReadsToEnd : Prop :=
  ∃ k, (∀ j < k, transfers.GoesOn size data j) ∧ transfers.read k ≠ .fails ∧
    transfers.offset size data k = data.length

/-- A call of `read` fails before the end, and every call of `write` until then is
complete. -/
def ReadFails : Prop :=
  ∃ k, (∀ j < k, transfers.GoesOn size data j) ∧ transfers.read k = .fails ∧
    transfers.offset size data k < data.length

variable {transfers size data}

theorem piece_eq (k offset : Nat) : ∃ count, transfers.piece size data k offset =
    (data.drop offset).take count := by
  rw [piece]
  cases transfers.read k with
  | fails => exact ⟨0, rfl⟩
  | gives count =>
      refine ⟨min (max 1 count) size, ?_⟩
      rw [ReadOutcome.returned, Option.getD_some, List.take_take]

theorem offset_le (k : Nat) : transfers.offset size data k ≤ data.length := by
  induction k with
  | zero => exact Nat.zero_le _
  | succ k hypothesis =>
      rcases @piece_eq transfers size data k (transfers.offset size data k) with
        ⟨count, same⟩
      rw [offset, same, List.length_take, List.length_drop]
      omega

theorem take_offset (k : Nat) : data.take (transfers.offset size data k) ++
    transfers.piece size data k (transfers.offset size data k) = data.take (transfers.offset size data (k + 1)) := by
  rcases @piece_eq transfers size data k (transfers.offset size data k) with
    ⟨count, same⟩
  rw [offset, same, take_append_piece]

theorem piece_ne_nil {k : Nat} (positive : 0 < size) (reads : transfers.read k ≠ .fails)
    (inside : transfers.offset size data k < data.length) :
    transfers.piece size data k (transfers.offset size data k) ≠ [] := by
  rw [piece]
  cases given : transfers.read k with
  | fails => exact absurd given reads
  | gives count =>
      rw [ReadOutcome.returned, Option.getD_some, List.take_take, ne_eq, List.take_eq_nil_iff,
        List.drop_eq_nil_iff]
      omega

/-- A call of `read` fails, finds the end, or returns a piece. -/
theorem returned_cases (positive : 0 < size) (k : Nat) {response : Option Bytes} (returned : response =
      (transfers.read k).returned ((data.drop (transfers.offset size data k)).take size)) :
    transfers.read k = .fails ∧ response = none ∨
      transfers.read k ≠ .fails ∧ transfers.offset size data k = data.length ∧ response = some [] ∨
      transfers.read k ≠ .fails ∧ transfers.offset size data k < data.length ∧
        transfers.piece size data k (transfers.offset size data k) ≠ [] ∧
        response = some (transfers.piece size data k (transfers.offset size data k)) := by
  have within := @offset_le transfers size data k
  cases given : transfers.read k with
  | fails =>
      rw [given] at returned
      exact Or.inl ⟨rfl, returned⟩
  | gives count =>
      have reads : transfers.read k ≠ .fails := by
        rw [given]
        exact ReadOutcome.noConfusion
      have isPiece : response = some (transfers.piece size data k (transfers.offset size data k)) := by
        rw [returned, piece, given]
        rfl
      rcases Nat.lt_or_ge (transfers.offset size data k) data.length with inside | atEnd
      · exact Or.inr (Or.inr ⟨ReadOutcome.noConfusion, inside, piece_ne_nil positive reads inside, isPiece⟩)
      · refine Or.inr (Or.inl ⟨ReadOutcome.noConfusion, by omega, ?_⟩)
        rcases @piece_eq transfers size data k (transfers.offset size data k) with
          ⟨fewer, same⟩
        rw [isPiece, same, List.drop_eq_nil_iff.mpr atEnd, List.take_nil]

/-- The loop stops in one round only. -/
theorem stops_once {k last : Nat} (goesOn : ∀ j < k, transfers.GoesOn size data j)
    (goesOnLast : ∀ j < last, transfers.GoesOn size data j) (stops : ¬ transfers.GoesOn size data k)
    (stopsLast : ¬ transfers.GoesOn size data last) : k = last := by
  rcases Nat.lt_trichotomy k last with before | same | behind
  · exact absurd (goesOnLast k before) stops
  · exact same
  · exact absurd (goesOn last behind) stopsLast

end Transfers

/-! ## The copy of the multi-thread synchroniser -/

/-- How the loop stops, and what it has copied. -/
inductive LoopEnd (transfers : Transfers) (data : Bytes) : Bool → Bytes → Prop
  | ended {k : Nat} (goesOn : ∀ j < k, transfers.GoesOn BUFFER_SIZE data j)
      (stops : transfers.read k = .fails ∨ transfers.offset BUFFER_SIZE data k = data.length) :
      LoopEnd transfers data true (data.take (transfers.offset BUFFER_SIZE data k))
  | writeFails {k : Nat} (copied : Bytes) (goesOn : ∀ j < k, transfers.GoesOn BUFFER_SIZE data j)
      (reads : transfers.read k ≠ .fails) (inside : transfers.offset BUFFER_SIZE data k < data.length)
      (stops : ¬ transfers.GoesOn BUFFER_SIZE data k) : LoopEnd transfers data false copied

section Copy

variable {transfers : Transfers} {source target : Bytes} {place there : Place}
  {file copy : RegularFile} {state : SysState} {Value : Type} {post : Value → Metered → Prop}

/-- Every call can be answered, and the results have `post`. -/
abbrev Transferring (transfers : Transfers) (post : Value → Metered → Prop) (program : Sys Value)
    (before : Metered) : Prop :=
  program.Always (Transferred transfers)
    (fun call between => ∃ response after, Transferred transfers call between response after)
    post before

/-- A call that is not a transfer and leaves the files as they are. -/
theorem Transferring.quiet {call : SysCall} {rest : SysResponse call → Sys Value} {before : Metered}
    (quiet : call.Quiet) (other : ¬ call.Transfer) {answer : SysResponse call}
    (possible : Answers call before.system answer before.system)
    (continued : ∀ response, Answers call before.system response before.system →
      Transferring transfers post (rest response) before) :
    Transferring transfers post (Program.perform call >>= rest) before := by
  apply Program.Always.call
  · exact ⟨_, _, .other other possible⟩
  · intro response after answered
    cases answered with
    | read => exact absurd trivial other
    | fread => exact absurd trivial other
    | write => exact absurd trivial other
    | fstat => exact absurd trivial other
    | other _ answered =>
        have same := faulty_quiet quiet (.answers answered)
        rw [same] at answered ⊢
        exact continued response answered

theorem transferred_read {descriptor : Descriptor} {offset count : Nat} {before after : Metered}
    {data : Bytes} {response : Option Bytes} (found : before.system.dataOf descriptor = some data)
    (answered : Transferred transfers (.read descriptor offset count) before response after) :
    response = (transfers.read before.reads).returned ((data.drop offset).take count) ∧
      after = { before with reads := before.reads + 1 } := by
  cases answered with
  | read there =>
      rw [found] at there
      cases there
      exact ⟨rfl, rfl⟩
  | other other _ => exact absurd trivial other

theorem transferred_write {descriptor : Descriptor} {offset : Nat} {text : Bytes}
    {before after : Metered} {response : Option Nat}
    (found : before.system.files descriptor.place = some (.regular copy))
    (answered : Transferred transfers (.write descriptor offset text) before response after) :
    response = (transfers.write before.writes).returned text ∧ ∃ changed : RegularFile,
      changed.data = pwrite copy.data offset ((transfers.write before.writes).written text) ∧
      after = { before with
        system := before.system.setNode descriptor.place (.regular changed)
        writes := before.writes + 1 } := by
  cases answered with
  | write now there =>
      rw [found] at there
      cases there
      exact ⟨rfl, _, rfl, rfl⟩
  | other other _ => exact absurd trivial other

/-- What is written of a piece that is told to be complete. -/
theorem WriteOutcome.written_eq {outcome : WriteOutcome} {text : Bytes}
    (complete : outcome.returned text = some text.length) : outcome.written text = text := by
  cases outcome with
  | fails => cases complete
  | takes count =>
      rw [WriteOutcome.returned, Option.some.injEq] at complete
      rw [WriteOutcome.written, List.take_of_length_le (by omega)]

theorem WriteOutcome.written_prefix (outcome : WriteOutcome) (text : Bytes) :
    outcome.written text <+: text := by
  cases outcome with
  | fails => exact List.nil_prefix
  | takes count => exact List.take_prefix count text

/-- Where a loop that copies is in front of its k-th round. -/
structure CopiedRounds (transfers : Transfers) (source target : Bytes) (place there : Place)
    (file : RegularFile) (size k : Nat) (copy : RegularFile) (state : SysState) : Prop where
  goesOn : ∀ j < k, transfers.GoesOn size file.data j
  sofar : copy.data = file.data.take (transfers.offset size file.data k)
  here : Writing source target place there file copy state

theorem CopiedRounds.isPrefix {size k : Nat}
    (copied : CopiedRounds transfers source target place there file size k copy state) :
    copy.data <+: file.data := by
  rw [copied.sofar]
  exact List.take_prefix _ _

/-- A loop that reads a piece and writes it, and stops when a read fails, at the end, and when
a piece is not written as a whole. -/
theorem copyLoop_transfers {loop : Nat → Nat → Sys Value} {failed ended short : Sys Value}
    {size number1 number2 length1 length2 : Nat} (positive : 0 < size) (different : place ≠ there)
    (goes : ∀ rounds offset, loop (rounds + 1) offset =
      Sys.read ⟨number1, place, length1⟩ offset size >>= fun found => match found with
        | none => failed
        | some [] => ended
        | some buffer => Sys.write ⟨number2, there, length2⟩ offset buffer >>= fun written =>
            if written ≠ some buffer.length then short else loop rounds (offset + buffer.length))
    (readFails : ∀ {k copy state},
      CopiedRounds transfers source target place there file size k copy state →
      transfers.read k = .fails → Transferring transfers post failed ⟨state, k + 1, k⟩)
    (ends : ∀ {k copy state},
      CopiedRounds transfers source target place there file size k copy state →
      transfers.read k ≠ .fails → transfers.offset size file.data k = file.data.length →
        Transferring transfers post ended ⟨state, k + 1, k⟩)
    (writeFails : ∀ {k : Nat} {copy : RegularFile} {state : SysState},
      (∀ j < k, transfers.GoesOn size file.data j) → transfers.read k ≠ .fails →
      transfers.offset size file.data k < file.data.length →
      ¬ transfers.GoesOn size file.data k → copy.data <+: file.data →
      Writing source target place there file copy state →
        Transferring transfers post short ⟨state, k + 1, k + 1⟩) :
    ∀ rounds k copy state, file.data.length < transfers.offset size file.data k + rounds →
      CopiedRounds transfers source target place there file size k copy state →
      Transferring transfers post (loop rounds (transfers.offset size file.data k)) ⟨state, k, k⟩ := by
  intro rounds
  induction rounds with
  | zero =>
      intro k copy state enough _
      have inside := @Transfers.offset_le transfers size file.data k
      omega
  | succ rounds hypothesis =>
      intro k copy state enough copied
      have sees : state.dataOf ⟨number1, place, length1⟩ = some file.data :=
        dataOf_file copied.here.reads
      have inside := @Transfers.offset_le transfers size file.data k
      rw [goes]
      apply Program.Always.call ⟨_, _, .read sees⟩
      intro response after answered
      rcases transferred_read sees answered with ⟨isPiece, rfl⟩
      dsimp only at isPiece
      rcases Transfers.returned_cases positive k isPiece with ⟨fails, rfl⟩ | ⟨reads, atEnd, rfl⟩ |
        ⟨reads, before, nonempty, rfl⟩
      · exact readFails copied fails
      · exact ends copied reads atEnd
      have continued := @Transfers.take_offset transfers size file.data k
      have next : transfers.offset size file.data (k + 1) = transfers.offset size file.data k +
          (transfers.piece size file.data k (transfers.offset size file.data k)).length := rfl
      rw [next] at continued
      generalize isBuffer : transfers.piece size file.data k (transfers.offset size file.data k) =
        buffer at nonempty continued next
      have bufferLength := List.length_pos_iff.mpr nonempty
      cases buffer with
      | nil => exact absurd rfl nonempty
      | cons byte rest =>
          have isThere := (Files.lookup_eq_some.mp copied.here.writes).2
          have atEnd : copy.data.length = transfers.offset size file.data k := by
            rw [copied.sofar, List.length_take_of_le inside]
          apply Program.Always.call ⟨_, _, .write 0 isThere⟩
          intro written after answered
          rcases transferred_write isThere answered with ⟨told, changed, isChanged, rfl⟩
          have hereChanged := copied.here.setNode (works_alone different) changed
          rw [← atEnd, pwrite_end, copied.sofar] at isChanged
          split
          · rename_i short
            apply writeFails copied.goesOn reads before _ _ hereChanged
            · intro goes
              have whole := goes.writes
              rw [isBuffer] at whole
              exact short (told.trans whole)
            · have piecePrefix : file.data.take (transfers.offset size file.data k) ++ byte :: rest <+:
                  file.data := by
                rw [continued]
                exact List.take_prefix _ _
              rw [isChanged]
              exact ((List.prefix_append_right_inj _).mpr
                (WriteOutcome.written_prefix _ _)).trans piecePrefix
          · rename_i complete
            have complete := told.symm.trans (Classical.not_not.mp complete)
            rw [← next]
            apply hypothesis (k + 1) changed
            · omega
            · constructor
              · intro j inFront
                rcases Nat.lt_succ_iff_lt_or_eq.mp inFront with earlier | rfl
                · exact copied.goesOn j earlier
                · exact ⟨reads, before, by rw [isBuffer]; exact complete⟩
              · rw [isChanged, WriteOutcome.written_eq complete, continued, next]
              · exact hereChanged

/-- The loop of `sync_file`. -/
theorem copyContents_transfers (different : place ≠ there) {number1 number2 length1 length2 : Nat}
    {rounds : Nat} (enough : file.data.length < rounds) (empty : copy.data = [])
    (here : Writing source target place there file copy state) :
    Transferring transfers (fun result after => ∃ copy : RegularFile,
        LoopEnd transfers file.data result copy.data ∧
        Writing source target place there file copy after.system)
      (copyContents ⟨number1, place, length1⟩ ⟨number2, there, length2⟩ rounds 0) ⟨state, 0, 0⟩ := by
  have start : CopiedRounds transfers source target place there file BUFFER_SIZE 0 copy state :=
    ⟨fun _ before => absurd before (Nat.not_lt_zero _), empty, here⟩
  have enoughLeft : file.data.length < transfers.offset BUFFER_SIZE file.data 0 + rounds := by
    rw [Transfers.offset, Nat.zero_add]
    exact enough
  apply copyLoop_transfers (by decide) different (fun _ _ => rfl) _ _ _ rounds 0 copy state
    enoughLeft start
  · intro k copy state copied fails
    refine ⟨copy, ?_, copied.here⟩
    rw [copied.sofar]
    exact .ended copied.goesOn (Or.inl fails)
  · intro k copy state copied _ atEnd
    refine ⟨copy, ?_, copied.here⟩
    rw [copied.sofar]
    exact .ended copied.goesOn (Or.inr atEnd)
  · intro k copy state goesOn reads inside stops _ here
    exact ⟨copy, .writeFails _ goesOn reads inside stops, here⟩

theorem Transferring.close {descriptor : Descriptor} {rest : Unit → Sys Value} {before : Metered}
    (continued : Transferring transfers post (rest ()) before) :
    Transferring transfers post (Sys.close descriptor >>= rest) before :=
  Transferring.quiet (by trivial) id (.close descriptor before.system) fun _ _ => continued

theorem Transferring.openRead {rest : Option Descriptor → Sys Value} {before : Metered} {node : Node}
    (found : before.system.lookup source = some (place, node))
    (continued : ∀ number, Transferring transfers post
      (rest (some ⟨number, place, (nodeStat node).size.toNat⟩)) before) :
    Transferring transfers post (Sys.openRead source >>= rest) before := by
  apply Transferring.quiet (by trivial) id (.openRead 0 found)
  intro response answered
  rcases answers_openRead found answered with ⟨number, rfl, _⟩
  exact continued number

/-- The target is opened, and is empty then. -/
theorem Transferring.openWrite {rest : Option Descriptor → Sys Value} {before : Metered}
    (different : place ≠ there) (reads : before.system.lookup source = some (place, .regular file))
    (resolved : before.system.files.resolve before.system.cwd target = some there)
    (notDirectory : before.system.files.isDirectory there = false)
    (continued : ∀ number copy state, copy.data = [] →
      Writing source target place there file copy state →
      Transferring transfers post (rest (some ⟨number, there, 0⟩))
        ⟨state, before.reads, before.writes⟩) :
    Transferring transfers post (Sys.openWrite target >>= rest) before := by
  have leads := Files.resolve_eq resolved
  apply Program.Always.call
  · rcases exists_openWrite resolved notDirectory with ⟨response, after, answered⟩
    exact ⟨response, _, .other id answered⟩
  intro response after answered
  cases answered with
  | other _ answered =>
      rcases answers_openWrite different reads leads.symm answered with
        ⟨number, copy, rfl, empty, _, _, _, here⟩
      exact continued number copy _ empty here

/-- What `sync_file` returns behind its loop, and what it leaves in the target. -/
theorem copyFile_transfers (different : place ≠ there)
    (reads : state.lookup source = some (place, .regular file))
    (resolved : state.files.resolve state.cwd target = some there)
    (notDirectory : state.files.isDirectory there = false) :
    Transferring transfers (fun outcome after => ∃ copy : RegularFile,
        LoopEnd transfers file.data outcome.returned copy.data ∧
        after.system.lookup target = some (there, .regular copy))
      (copyFile source target) ⟨state, 0, 0⟩ := by
  rw [copyFile]
  apply Transferring.openRead reads
  intro number1
  apply Transferring.openWrite different reads resolved notDirectory
  intro number2 copy after empty here
  have enough : file.data.length < (nodeStat (.regular file)).size.toNat + 1 :=
    Nat.lt_succ_self _
  apply Program.Always.bind
  apply (copyContents_transfers different enough empty here).mono
  rintro success between ⟨copy, ended, here⟩
  split
  · rename_i succeeded
    rw [succeeded] at ended
    apply Program.Always.call ⟨_, _, .fstat (Files.lookup_eq_some.mp here.reads).2⟩
    intro response last answered
    have unchanged : last = between := by
      cases answered with
      | fstat => rfl
      | other other _ => exact absurd trivial other
    subst unchanged
    cases response with
    | none => exact Transferring.close ⟨copy, ended, here.writes⟩
    | some found =>
        apply Transferring.close
        apply Program.Always.call ⟨_, _, .other id (.utimes found.mtime here.writes)⟩
        intro timed last answered
        apply Transferring.close
        cases answered with
        | other _ answered =>
            cases answered with
            | utimes mtime there =>
                rw [here.writes] at there
                cases there
                have changed := here.setNode (works_alone different)
                  { copy with mtime := found.mtime }
                exact ⟨{ copy with mtime := found.mtime }, ended, changed.writes⟩
  · rename_i failed
    rw [Bool.not_eq_true] at failed
    rw [failed] at ended
    exact Transferring.close (Transferring.close ⟨copy, ended, here.writes⟩)

/-! ## What the result is worth -/

/-- `sync_file` returns 1 only if the target has the bytes of the source, and does so
when everything was read and written. -/
def ReturnsRight (transfers : Transfers) (target : Bytes) (data : Bytes) (outcome : Outcome)
    (after : Metered) : Prop :=
  (outcome.returned = true → ∃ there copy,
      after.system.lookup target = some (there, .regular copy) ∧ copy.data = data) ∧
    (transfers.ReadsToEnd BUFFER_SIZE data → outcome.returned = true)

theorem LoopEnd.fails {data copied : Bytes} {returned : Bool}
    (ended : LoopEnd transfers data returned copied) (readFails : transfers.ReadFails BUFFER_SIZE data) :
    returned = true ∧ copied ≠ data := by
  rcases readFails with ⟨k, goesOn, fails, inside⟩
  have stops : ¬ transfers.GoesOn BUFFER_SIZE data k := fun goes => goes.reads fails
  cases ended with
  | @ended last goesOnLast stopsLast =>
      have stopped : ¬ transfers.GoesOn BUFFER_SIZE data last := by
        intro goes
        rcases stopsLast with fails | atEnd
        · exact goes.reads fails
        · exact absurd goes.inside (by omega)
      cases Transfers.stops_once goesOn goesOnLast stops stopped
      refine ⟨rfl, fun whole => ?_⟩
      have lengths := congrArg List.length whole
      rw [List.length_take] at lengths
      omega
  | writeFails copied goesOnLast reads _ stopsLast =>
      cases Transfers.stops_once goesOn goesOnLast stops stopsLast
      exact absurd fails reads

theorem LoopEnd.right {data copied : Bytes} {returned : Bool}
    (ended : LoopEnd transfers data returned copied) (noFailure : ¬ transfers.ReadFails BUFFER_SIZE data) :
    (returned = true → copied = data) ∧ (transfers.ReadsToEnd BUFFER_SIZE data → returned = true) := by
  cases ended with
  | @ended last goesOn stops =>
      refine ⟨fun _ => ?_, fun _ => rfl⟩
      have within := @Transfers.offset_le transfers BUFFER_SIZE data last
      apply List.take_of_length_le
      by_contra short
      rcases stops with fails | atEnd
      · exact noFailure ⟨last, goesOn, fails, by omega⟩
      · omega
  | writeFails copied goesOn reads inside stops =>
      refine ⟨Bool.noConfusion, ?_⟩
      rintro ⟨k, goesOnEnd, _, atEnd⟩
      have stopped : ¬ transfers.GoesOn BUFFER_SIZE data k := fun goes => absurd goes.inside (by omega)
      cases Transfers.stops_once goesOnEnd goesOn stopped stops
      omega

theorem not_right_of_readFails (different : place ≠ there)
    (reads : state.lookup source = some (place, .regular file))
    (resolved : state.files.resolve state.cwd target = some there)
    (notDirectory : state.files.isDirectory there = false)
    (readFails : transfers.ReadFails BUFFER_SIZE file.data) :
    ¬ (copyFile source target).Always (Transferred transfers) (fun _ _ => True)
        (ReturnsRight transfers target file.data) ⟨state, 0, 0⟩ := by
  intro always
  have copied := @copyFile_transfers transfers _ _ _ _ _ _ different reads resolved notDirectory
  rcases (copied.and always).exists_run (fun _ _ allowed => allowed.1) with
    ⟨outcome, after, _, ⟨copy, ended, found⟩, right⟩
  rcases ended.fails readFails with ⟨returned, short⟩
  rcases right.1 returned with ⟨there', copy', found', whole⟩
  rw [found] at found'
  cases found'
  exact short whole

/-- Once both files are open, what `sync_file` returns is right unless a call of
`read` fails before the end of the source. -/
theorem copyFile_returns_right_iff (different : place ≠ there)
    (reads : state.lookup source = some (place, .regular file))
    (resolved : state.files.resolve state.cwd target = some there)
    (notDirectory : state.files.isDirectory there = false) :
    (copyFile source target).Always (Transferred transfers) (fun _ _ => True)
        (ReturnsRight transfers target file.data) ⟨state, 0, 0⟩ ↔
      ¬ transfers.ReadFails BUFFER_SIZE file.data := by
  have copied := @copyFile_transfers transfers _ _ _ _ _ _ different reads resolved notDirectory
  constructor
  · intro always readFails
    exact not_right_of_readFails different reads resolved notDirectory readFails always
  · intro noFailure
    apply (copied.mono_allowed fun _ _ _ => trivial).mono
    rintro outcome after ⟨copy, ended, found⟩
    have right := ended.right noFailure
    exact ⟨fun returned => ⟨there, copy, found, right.1 returned⟩, right.2⟩

theorem copyFile_returns_right_iff_whole :
    (copyFile [47, 97] [47, 98]).Always (Transferred ⟨fun _ => .gives 2, fun _ => .takes 5, false⟩)
        (fun _ _ => True)
        (ReturnsRight ⟨fun _ => .gives 2, fun _ => .takes 5, false⟩ [47, 98] threeBytes.data)
        ⟨oneFile, 0, 0⟩ ↔
      ¬ (Transfers.mk (fun _ => .gives 2) (fun _ => .takes 5) false).ReadFails BUFFER_SIZE threeBytes.data := by
  exact @copyFile_returns_right_iff _ _ _ [[97]] [[98]] _ _ (by decide) rfl rfl rfl

/-- The first call of `read` fails, and `sync_file` returns 1 with an empty target. -/
theorem copyFile_returns_wrong :
    ¬ (copyFile [47, 97] [47, 98]).Always
        (Transferred ⟨fun _ => .fails, fun _ => .takes 5, true⟩) (fun _ _ => True)
        (ReturnsRight ⟨fun _ => .fails, fun _ => .takes 5, true⟩ [47, 98] threeBytes.data)
        ⟨oneFile, 0, 0⟩ := by
  apply @not_right_of_readFails _ _ _ [[97]] [[98]] _ _ (by decide) rfl rfl rfl
  exact ⟨0, ⟨fun j before => absurd before (Nat.not_lt_zero j), rfl, by decide⟩⟩

end Copy

end Apue.Sync
