import Apue.Sync.Directories

/-! # Copies that were broken off

A call may fail at any time, or read and write less than it is asked for, and the
program may be stopped between two calls. Whatever is left of a target then is
not taken for a finished copy.
-/

namespace Apue.Sync

open Apue.Foundation

/-! ## Calls that fail -/

/-- What a call returns that fails and changes nothing. -/
def Failure : (call : SysCall) → SysResponse call → Prop
  | .stat _, found => found = (none : Option Stat)
  | .access _, there => there = false
  | .readDirectory _, names => names = (none : Option (List Bytes))
  | .mkdir _, errno => errno ≠ (0 : Int)
  | .openRead _, descriptor => descriptor = (none : Option Descriptor)
  | .openWrite _, descriptor => descriptor = (none : Option Descriptor)
  | .read _ _ _, text => text = (none : Option Bytes)
  | .write _ _ _, written => written = (none : Option Nat)
  | .fstat _, found => found = (none : Option Stat)
  | .utimes _ _, done => done = false
  | .chmod _ _, done => done = false
  | .chown _, errno => errno ≠ (0 : Int)
  | _, _ => False

/-- The answers when any call may fail. A call of `read` that has not come to the
end of the file returns a byte at least; a call of `fread` may return none, and a
call of `write` may fail when it has written something. -/
inductive Faulty : (call : SysCall) → SysState → SysResponse call → SysState → Prop
  | answers {call : SysCall} {state after : SysState} {response : SysResponse call}
      (answered : Answers call state response after) : Faulty call state response after
  | fails {call : SysCall} {state : SysState} {response : SysResponse call}
      (failure : Failure call response) : Faulty call state response state
  | readShort {descriptor : Descriptor} {offset count fewer : Nat} {state : SysState} {data : Bytes}
      (found : state.dataOf descriptor = some data) (positive : 0 < fewer) (within : fewer ≤ count) :
      Faulty (.read descriptor offset count) state
        (some ((data.drop offset).take fewer) : Option Bytes) state
  | freadShort {offset count fewer : Nat} (descriptor : Descriptor) (state : SysState)
      (within : fewer ≤ count) :
      Faulty (.fread descriptor offset count) state
        ((((state.dataOf descriptor).getD []).drop offset).take fewer) state
  | writeShort {descriptor : Descriptor} {offset fewer : Nat} {text : Bytes} {state : SysState}
      {file : RegularFile} {response : Option Nat} (now : Int)
      (found : state.files descriptor.place = some (.regular file)) (within : fewer ≤ text.length)
      (told : response = none ∨ response = some fewer) :
      Faulty (.write descriptor offset text) state response
        (state.setNode descriptor.place
          (.regular { file with data := pwrite file.data offset (text.take fewer), mtime := now }))

/-- The calls that change nothing. -/
def SysCall.Quiet : SysCall → Prop
  | .stat _ => True
  | .access _ => True
  | .readDirectory _ => True
  | .openRead _ => True
  | .read _ _ _ => True
  | .fread _ _ _ => True
  | .fstat _ => True
  | .close _ => True
  | .chown _ => True
  | _ => False

section Faulty

variable {call : SysCall} {state after : SysState} {path : Bytes} {descriptor : Descriptor}
  {offset count : Nat}

theorem faulty_quiet {response : SysResponse call} (quiet : call.Quiet)
    (answered : Faulty call state response after) : after = state := by
  cases answered with
  | answers answered =>
      cases answered
      all_goals first
        | rfl
        | exact False.elim quiet
  | fails failure => rfl
  | readShort found positive within => rfl
  | freadShort descriptor state within => rfl
  | writeShort now found within told => exact False.elim quiet

/-- A piece of a file, as far as it was read. -/
theorem faulty_fread {response : Bytes}
    (answered : Faulty (.fread descriptor offset count) state response after) :
    ∃ fewer, response = (((state.dataOf descriptor).getD []).drop offset).take fewer := by
  cases answered with
  | answers answered => exact ⟨count, (answers_fread answered).1⟩
  | fails failure => exact False.elim failure
  | freadShort descriptor state within => exact ⟨_, rfl⟩

/-- Where `read` returns nothing, it has come to the end. -/
theorem faulty_read {data : Bytes} {response : Option Bytes} (positive : 0 < count)
    (found : state.dataOf descriptor = some data)
    (answered : Faulty (.read descriptor offset count) state response after) :
    response = none ∨ ∃ fewer, 0 < fewer ∧ response = some ((data.drop offset).take fewer) := by
  cases answered with
  | answers answered =>
      have isPiece := (answers_read answered).1
      rw [found] at isPiece
      exact Or.inr ⟨count, positive, isPiece⟩
  | fails failure => exact Or.inl failure
  | readShort there more within =>
      rw [found] at there
      cases there
      exact Or.inr ⟨_, more, rfl⟩

theorem faulty_openRead {place : Place} {node : Node} {opened : Descriptor}
    (found : state.lookup path = some (place, node))
    (answered : Faulty (.openRead path) state (some opened : Option Descriptor) after) :
    opened.place = place ∧ opened.length = (nodeStat node).size.toNat := by
  cases answered with
  | answers answered =>
      rcases answers_openRead found answered with ⟨number, same, _⟩
      cases same
      exact ⟨rfl, rfl⟩
  | fails failure => cases failure

end Faulty

/-! ## What is left of a target -/

/-- The source is what it was, and a regular file at the end of the target's path
is only taken for the same if it is. -/
structure Sound (same : RegularFile → Node → Bool) (cwd : Place) (source : Bytes)
    (place there : Place) (file : RegularFile) (state : SysState) : Prop where
  reads : state.lookup source = some (place, .regular file)
  sameCwd : state.cwd = cwd
  trusted : ∀ copy, state.files there = some (.regular copy) →
    same file (.regular copy) = true → copy.data = file.data

/-- The target has this many bytes of the source. -/
structure CopiedTo (count : Nat) (cwd : Place) (source : Bytes) (place there : Place)
    (file : RegularFile) (state : SysState) : Prop where
  reads : state.lookup source = some (place, .regular file)
  sameCwd : state.cwd = cwd
  copied : ∃ copy, state.files there = some (.regular copy) ∧ copy.data = file.data.take count

section Sound

variable {same : RegularFile → Node → Bool} {cwd place there : Place} {source target : Bytes}
  {file copy : RegularFile} {state after : SysState} {count : Nat}

/-- A part of a file has its size if it is the whole file. -/
theorem CopiedTo.sound
    (sizes : ∀ copy, same file (.regular copy) = true → file.data.length = copy.data.length)
    (copied : CopiedTo count cwd source place there file state) :
    Sound same cwd source place there file state where
  reads := copied.reads
  sameCwd := copied.sameCwd
  trusted := by
    intro other isThere taken
    rcases copied.copied with ⟨copy, copyThere, prefixed⟩
    rw [isThere] at copyThere
    cases copyThere
    have whole := sizes other taken
    rw [prefixed, List.length_take] at whole
    rw [prefixed, List.take_of_length_le (by omega)]

theorem CopiedTo.setNode (different : place ≠ there)
    (copied : CopiedTo count cwd source place there file state) {changed : RegularFile} {more : Nat}
    (prefixed : changed.data = file.data.take more) :
    CopiedTo more cwd source place there file (state.setNode there (.regular changed)) := by
  rcases copied.copied with ⟨copy, copyThere, _⟩
  have notDirectory := SysState.isDirectory_of_regular copyThere
  exact ⟨SysState.setNode_lookup_other notDirectory changed copied.reads different, copied.sameCwd,
    changed, SysState.setNode_files_same _ _ _, prefixed⟩

theorem Sound.grown {ways : Place → Prop} (sound : Sound same cwd source place there file state)
    (grown : Grown ways state after) : Sound same cwd source place there file after where
  reads := grown.lookup sound.reads
  sameCwd := grown.sameCwd.trans sound.sameCwd
  trusted := by
    intro copy isThere
    rcases grown.files there with unchanged | ⟨_, _, directory⟩
    · rw [unchanged] at isThere
      exact sound.trusted copy isThere
    · rw [SysState.isDirectory_of_regular isThere] at directory
      cases directory

theorem Sound.opened (different : place ≠ there)
    (sound : Sound same cwd source place there file state)
    (notDirectory : state.files.isDirectory there = false) (changed : RegularFile)
    (empty : changed.data = []) (opened : List Bytes) :
    CopiedTo 0 cwd source place there file
      { state.setNode there (.regular changed) with opened := opened } :=
  ⟨SysState.setNode_lookup_other notDirectory changed sound.reads different, sound.sameCwd,
    changed, SysState.setNode_files_same _ _ _, empty⟩

/-! ## The calls that change something -/

theorem Sound.mkdir {path : Bytes} {errno : Int}
    (sound : Sound same cwd source place there file state)
    (answered : Faulty (.mkdir path) state errno after) :
    Sound same cwd source place there file after := by
  cases answered with
  | answers answered => exact sound.grown (answers_mkdir answered).2.1
  | fails failure => exact sound

theorem Sound.openWrite (different : place ≠ there) (leads : Path.destination cwd target = there)
    {response : Option Descriptor} (sound : Sound same cwd source place there file state)
    (answered : Faulty (.openWrite target) state response after) :
    response = none ∧ after = state ∨
      ∃ opened, response = some opened ∧ opened.place = there ∧
        CopiedTo 0 cwd source place there file after := by
  rw [← sound.sameCwd] at leads
  cases answered with
  | answers answered =>
      cases answered with
      | openExisting number now found =>
          rcases Files.lookup_eq_some.mp found with ⟨resolved, isThere⟩
          cases (Files.resolve_eq resolved).trans leads
          exact Or.inr ⟨_, rfl, rfl, sound.opened different
            (SysState.isDirectory_of_regular isThere) _ rfl _⟩
      | openNew number now resolved absent =>
          cases (Files.resolve_eq resolved).trans leads
          have notDirectory : state.files.isDirectory there = false := by
            rw [Files.isDirectory, absent]
          exact Or.inr ⟨_, rfl, rfl, sound.opened different notDirectory _ rfl _⟩
  | fails failure => exact Or.inl ⟨failure, rfl⟩

/-- However much of a piece is written, the target has a part of the source. -/
theorem CopiedTo.write (different : place ≠ there) {descriptor : Descriptor} {offset piece : Nat}
    {response : Option Nat} (inside : offset ≤ file.data.length) (isTarget : descriptor.place = there)
    (copied : CopiedTo offset cwd source place there file state)
    (answered : Faulty (.write descriptor offset ((file.data.drop offset).take piece)) state
      response after) :
    ∃ more, CopiedTo more cwd source place there file after ∧
      (response = some ((file.data.drop offset).take piece).length →
        more = offset + ((file.data.drop offset).take piece).length) := by
  subst isTarget
  rcases copied.copied with ⟨copy, copyThere, prefixed⟩
  have atEnd : copy.data.length = offset := by
    rw [prefixed, List.length_take_of_le inside]
  have appended : ∀ text, pwrite copy.data offset text = copy.data ++ text := by
    intro text
    rw [← atEnd, pwrite_end]
  cases answered with
  | answers answered =>
      cases answered with
      | write now found =>
          rw [copyThere] at found
          cases found
          refine ⟨_, copied.setNode different ?_, fun _ => rfl⟩
          dsimp only
          rw [appended, prefixed, take_append_piece]
  | fails failure =>
      refine ⟨offset, copied, fun told => ?_⟩
      rw [failure] at told
      cases told
  | writeShort now found within told =>
      rename_i fewer _
      rw [copyThere] at found
      cases found
      refine ⟨offset + ((file.data.drop offset).take (min fewer piece)).length,
        copied.setNode different ?_, fun whole => ?_⟩
      · dsimp only
        rw [List.take_take, appended, prefixed, take_append_piece]
      · rw [whole] at told
        rcases told with none | isWhole
        · cases none
        · rw [← List.take_take, ← Option.some.inj isWhole, List.take_length]

theorem CopiedTo.utimes (different : place ≠ there) (leads : Path.destination cwd target = there)
    {mtime : Int} {response : Bool} (copied : CopiedTo count cwd source place there file state)
    (answered : Faulty (.utimes target mtime) state response after) :
    CopiedTo count cwd source place there file after := by
  rw [← copied.sameCwd] at leads
  cases answered with
  | answers answered =>
      cases answered with
      | utimes mtime found =>
          rcases Files.lookup_eq_some.mp found with ⟨resolved, isThere⟩
          cases (Files.resolve_eq resolved).trans leads
          rcases copied.copied with ⟨copy, copyThere, prefixed⟩
          rw [isThere] at copyThere
          cases copyThere
          exact copied.setNode different prefixed
  | fails failure => exact copied

theorem CopiedTo.chmod (different : place ≠ there) (leads : Path.destination cwd target = there)
    {mode : Nat} {response : Bool} (copied : CopiedTo count cwd source place there file state)
    (answered : Faulty (.chmod target mode) state response after) :
    CopiedTo count cwd source place there file after := by
  rw [← copied.sameCwd] at leads
  cases answered with
  | answers answered =>
      cases answered with
      | chmod mode found =>
          rcases Files.lookup_eq_some.mp found with ⟨resolved, isThere⟩
          cases (Files.resolve_eq resolved).trans leads
          rcases copied.copied with ⟨copy, copyThere, prefixed⟩
          rw [isThere] at copyThere
          cases copyThere
          exact copied.setNode different prefixed
  | fails failure => exact copied

end Sound

/-! ## Runs with failures -/

section Runs

variable {same : RegularFile → Node → Bool} {cwd place there : Place} {source target : Bytes}
  {file : RegularFile} {state : SysState} {Value : Type} {post : Value → SysState → Prop}

/-- At every call of a run the target is as it should be, and no loop goes on for
longer than its bound. -/
abbrev Survives (same : RegularFile → Node → Bool) (cwd : Place) (source : Bytes)
    (place there : Place) (file : RegularFile) (post : Value → SysState → Prop)
    (program : Sys Value) (state : SysState) : Prop :=
  program.Always Faulty (fun call between => call ≠ .outOfRounds ∧
    Sound same cwd source place there file between) post state

theorem Survives.quiet {call : SysCall} {rest : SysResponse call → Sys Value} (quiet : call.Quiet)
    (sound : Sound same cwd source place there file state)
    (continued : ∀ response, Faulty call state response state →
      Survives same cwd source place there file post (rest response) state) :
    Survives same cwd source place there file post (Program.perform call >>= rest) state := by
  apply Program.Always.call
  · refine ⟨?_, sound⟩
    rintro rfl
    exact quiet
  · intro response after answered
    cases faulty_quiet quiet answered
    exact continued response answered

theorem survives_getFileSize {path : Bytes} {rest : Int → Sys Value}
    (sound : Sound same cwd source place there file state)
    (continued : ∀ size, Survives same cwd source place there file post (rest size) state) :
    Survives same cwd source place there file post (getFileSize path >>= rest) state := by
  rw [getFileSize, bind_assoc]
  apply Survives.quiet (by trivial) sound
  intro found _
  cases found with
  | none => exact continued _
  | some found => exact continued _

theorem survives_getFileMtime {path : Bytes} {rest : Int → Sys Value}
    (sound : Sound same cwd source place there file state)
    (continued : ∀ mtime, Survives same cwd source place there file post (rest mtime) state) :
    Survives same cwd source place there file post (getFileMtime path >>= rest) state := by
  rw [getFileMtime, bind_assoc]
  apply Survives.quiet (by trivial) sound
  intro found _
  cases found with
  | none => exact continued _
  | some found => exact continued _

theorem survives_close {descriptor : Descriptor} {rest : Unit → Sys Value}
    (sound : Sound same cwd source place there file state)
    (continued : Survives same cwd source place there file post (rest ()) state) :
    Survives same cwd source place there file post (Sys.close descriptor >>= rest) state :=
  Survives.quiet (by trivial) sound fun _ _ => continued

theorem survives_compareContents {f1 f2 : Descriptor} {data : Bytes}
    (sound : Sound same cwd source place there file state)
    (reads : state.dataOf f1 = some data) :
    ∀ rounds offset, data.length < offset + rounds → offset ≤ data.length →
      Survives same cwd source place there file (fun _ after => after = state)
        (compareContents f1 f2 rounds offset) state
  | 0, offset, enough, inside => absurd enough (by omega)
  | rounds + 1, offset, enough, inside => by
      rw [compareContents]
      apply Survives.quiet (by trivial) sound
      intro buffer1 answered1
      apply Survives.quiet (by trivial) sound
      intro buffer2 _
      split
      · rfl
      split
      · rename_i positive
        rcases faulty_fread answered1 with ⟨fewer, isPiece⟩
        rw [reads, Option.getD_some] at isPiece
        have within : buffer1.length ≤ data.length - offset := by
          rw [isPiece, List.length_take, List.length_drop]
          exact Nat.min_le_right _ _
        apply survives_compareContents sound reads rounds
        · omega
        · omega
      · rfl

theorem dataOf_source {descriptor : Descriptor} (isPlace : descriptor.place = place)
    (reads : state.lookup source = some (place, .regular file)) :
    state.dataOf descriptor = some file.data := by
  rw [SysState.dataOf, isPlace, (Files.lookup_eq_some.mp reads).2]

theorem survives_compareFiles (sound : Sound same cwd source place there file state) :
    Survives same cwd source place there file (fun _ after => after = state)
      (compareFiles source target) state := by
  rw [compareFiles, fileExists]
  apply Survives.quiet (by trivial) sound
  intro isThere _
  split
  · rfl
  apply survives_getFileSize sound
  intro size1
  apply survives_getFileSize sound
  intro size2
  generalize (1024 * 1024 : Int) = threshold
  split
  · rfl
  apply survives_getFileMtime sound
  intro mtime1
  apply survives_getFileMtime sound
  intro mtime2
  split
  · rfl
  split
  · apply Survives.quiet (by trivial) sound
    intro f1 opened1
    apply Survives.quiet (by trivial) sound
    intro f2 _
    split
    · rename_i f1 f2 _
      rcases faulty_openRead sound.reads opened1 with ⟨isPlace, isLength⟩
      have reads := dataOf_source isPlace sound.reads
      have enough : file.data.length < 0 + (f1.length + 1) := by
        rw [isLength]
        change file.data.length < 0 + ((file.data.length : Int).toNat + 1)
        omega
      apply Program.Always.bind
      apply (survives_compareContents sound reads _ 0 enough (Nat.zero_le _)).mono
      rintro result between rfl
      exact survives_close sound (survives_close sound rfl)
    · exact survives_close sound rfl
    · exact survives_close sound rfl
    · rfl
  · rfl

theorem survives_mkdirs {paths : List Bytes} (sound : Sound same cwd source place there file state) :
    Survives same cwd source place there file
      (fun _ after => Sound same cwd source place there file after) (mkdirs paths) state := by
  induction paths generalizing state with
  | nil => exact sound
  | cons path paths hypothesis =>
      rw [mkdirs]
      apply Program.Always.call ⟨SysCall.noConfusion, sound⟩
      intro errno after answered
      split
      · exact sound.mkdir answered
      · exact hypothesis (sound.mkdir answered)

theorem survives_createDirectory {path : Bytes}
    (sound : Sound same cwd source place there file state) :
    Survives same cwd source place there file
      (fun _ after => Sound same cwd source place there file after) (createDirectory path) state := by
  rw [createDirectory]
  apply Survives.quiet (by trivial) sound
  intro isThere _
  split
  · exact sound
  dsimp only
  split
  · exact ⟨⟨SysCall.noConfusion, sound⟩, fun never => by cases never⟩
  · exact survives_mkdirs sound

/-! ### Copying -/

/-- The comparison takes a copy for the same only if it has the size. -/
def ComparesSizes (same : RegularFile → Node → Bool) (file : RegularFile) : Prop :=
  ∀ copy, same file (.regular copy) = true → file.data.length = copy.data.length

theorem survives_copyContents (sizes : ComparesSizes same file) (different : place ≠ there)
    {sourceFd targetFd : Descriptor} (isSource : sourceFd.place = place)
    (isTarget : targetFd.place = there) :
    ∀ rounds offset state, file.data.length < offset + rounds → offset ≤ file.data.length →
      CopiedTo offset cwd source place there file state →
      Survives same cwd source place there file
        (fun _ after => ∃ count, CopiedTo count cwd source place there file after)
        (copyContents sourceFd targetFd rounds offset) state
  | 0, offset, state, enough, inside, copied => absurd enough (by omega)
  | rounds + 1, offset, state, enough, inside, copied => by
      rw [copyContents]
      apply Survives.quiet (by trivial) (copied.sound sizes)
      intro buffer answered
      rcases faulty_read (by decide) (dataOf_source isSource copied.reads) answered with
        rfl | ⟨fewer, positive, rfl⟩
      · exact ⟨offset, copied⟩
      split
      · rename_i missing
        cases missing
      · exact ⟨offset, copied⟩
      · rename_i buffer nonempty isPiece
        cases Option.some.inj isPiece
        apply Program.Always.call ⟨SysCall.noConfusion, copied.sound sizes⟩
        intro written after answered
        rcases copied.write different inside isTarget answered with ⟨more, copiedMore, whole⟩
        split
        · exact ⟨more, copiedMore⟩
        · rename_i complete
          cases whole (Classical.not_not.mp complete)
          have isPart : ((file.data.drop offset).take fewer).length ≤ file.data.length - offset := by
            rw [List.length_take, List.length_drop]
            exact Nat.min_le_right _ _
          have more : 0 < ((file.data.drop offset).take fewer).length := by
            apply List.length_pos_iff.mpr
            intro empty
            rw [empty] at nonempty
            exact nonempty rfl
          apply survives_copyContents sizes different isSource isTarget rounds
          · omega
          · omega
          · exact copiedMore

theorem survives_copyFile (sizes : ComparesSizes same file) (different : place ≠ there)
    (leads : Path.destination cwd target = there)
    (sound : Sound same cwd source place there file state) :
    Survives same cwd source place there file
      (fun _ after => Sound same cwd source place there file after)
      (copyFile source target) state := by
  rw [copyFile]
  apply Survives.quiet (by trivial) sound
  intro sourceFd openedSource
  split
  · exact sound
  rename_i sourceFd
  rcases faulty_openRead sound.reads openedSource with ⟨isSource, isLength⟩
  apply Program.Always.call ⟨SysCall.noConfusion, sound⟩
  intro targetFd after answered
  rcases sound.openWrite different leads answered with ⟨rfl, rfl⟩ | ⟨targetFd, rfl, isTarget, copied⟩
  · exact survives_close sound sound
  have enough : file.data.length < 0 + (sourceFd.length + 1) := by
    rw [isLength]
    change file.data.length < 0 + ((file.data.length : Int).toNat + 1)
    omega
  apply Program.Always.bind
  apply (survives_copyContents sizes different isSource isTarget _ 0 after enough (Nat.zero_le _)
    copied).mono
  rintro success between ⟨count, copied⟩
  have sound := copied.sound sizes
  split
  · apply Survives.quiet (by trivial) sound
    intro found _
    split
    · exact survives_close sound sound
    · apply survives_close sound
      apply Program.Always.call ⟨SysCall.noConfusion, sound⟩
      intro timed last answered
      have soundLast := (copied.utimes different leads answered).sound sizes
      exact survives_close soundLast soundLast
  · exact survives_close sound (survives_close sound sound)

theorem survives_syncFile (sizes : ComparesSizes same file) (different : place ≠ there)
    (leads : Path.destination cwd target = there)
    (sound : Sound same cwd source place there file state) (dryRun : Bool) :
    Survives same cwd source place there file
      (fun _ after => Sound same cwd source place there file after)
      (syncFile source target dryRun) state := by
  have outcome : Survives same cwd source place there file
      (fun _ after => Sound same cwd source place there file after)
      (syncFileOutcome source target dryRun) state := by
    rw [syncFileOutcome]
    apply Program.Always.bind
    apply (survives_compareFiles sound).mono
    rintro identical between rfl
    split
    · exact sound
    split
    · exact sound
    split
    · exact survives_copyFile sizes different leads sound
    · apply Program.Always.bind
      apply (survives_createDirectory sound).mono
      intro made after sound
      split
      · exact survives_copyFile sizes different leads sound
      · exact sound
  rw [syncFile]
  apply Program.Always.bind
  apply outcome.mono
  intro outcome between sound
  apply Program.Always.call ⟨SysCall.noConfusion, sound⟩
  intro _ after answered
  cases answered with
  | answers answered =>
      cases answered
      exact ⟨sound.reads, sound.sameCwd, sound.trusted⟩
  | fails failure => exact False.elim failure

/-! ### The simple synchroniser -/

namespace SimpleRsync

theorem survives_compareContents {fd1 fd2 : Descriptor} {data : Bytes}
    (sound : Sound same cwd source place there file state)
    (reads : state.dataOf fd1 = some data) :
    ∀ rounds offset, data.length < offset + rounds → offset ≤ data.length →
      Survives same cwd source place there file (fun _ after => after = state)
        (SimpleRsync.compareContents fd1 fd2 rounds offset) state
  | 0, offset, enough, inside => absurd enough (by omega)
  | rounds + 1, offset, enough, inside => by
      rw [SimpleRsync.compareContents]
      apply Survives.quiet (by trivial) sound
      intro buf1 answered1
      apply Survives.quiet (by trivial) sound
      intro buf2 _
      split
      · exact survives_close sound (survives_close sound rfl)
      rcases faulty_read (by decide) reads answered1 with rfl | ⟨fewer, _, rfl⟩
      · exact ⟨⟨SysCall.noConfusion, sound⟩, fun never => by cases never⟩
      cases buf2 with
      | none => exact ⟨⟨SysCall.noConfusion, sound⟩, fun never => by cases never⟩
      | some buf2 =>
          dsimp only
          split
          · exact survives_close sound (survives_close sound rfl)
          rename_i nonempty
          split
          · exact survives_close sound (survives_close sound rfl)
          · have within : ((data.drop offset).take fewer).length ≤ data.length - offset := by
              rw [List.length_take, List.length_drop]
              exact Nat.min_le_right _ _
            have positive := List.length_pos_iff.mpr nonempty
            apply survives_compareContents sound reads rounds
            · omega
            · omega

theorem survives_filesAreIdentical (sound : Sound same cwd source place there file state) :
    Survives same cwd source place there file (fun _ after => after = state)
      (filesAreIdentical source target) state := by
  rw [filesAreIdentical]
  apply Survives.quiet (by trivial) sound
  intro stat1 _
  split
  · rfl
  apply Survives.quiet (by trivial) sound
  intro stat2 _
  split
  · rfl
  split
  · rfl
  split
  · rfl
  apply Survives.quiet (by trivial) sound
  intro fd1 opened1
  apply Survives.quiet (by trivial) sound
  intro fd2 _
  split
  · rename_i fd1 fd2 _
    rcases faulty_openRead sound.reads opened1 with ⟨isPlace, isLength⟩
    have enough : file.data.length < 0 + (fd1.length + 1) := by
      rw [isLength]
      change file.data.length < 0 + ((file.data.length : Int).toNat + 1)
      omega
    exact survives_compareContents sound (dataOf_source isPlace sound.reads) _ 0 enough
      (Nat.zero_le _)
  · exact survives_close sound rfl
  · exact survives_close sound rfl
  · rfl

theorem survives_destinationIsIdentical (sound : Sound same cwd source place there file state) :
    Survives same cwd source place there file (fun _ after => after = state)
      (destinationIsIdentical source target) state := by
  rw [destinationIsIdentical]
  apply Survives.quiet (by trivial) sound
  intro dstStat _
  split
  · rfl
  · exact survives_filesAreIdentical sound

theorem survives_createDirectoryRecursive {path : Bytes}
    (sound : Sound same cwd source place there file state) :
    Survives same cwd source place there file
      (fun _ after => Sound same cwd source place there file after)
      (createDirectoryRecursive path) state := by
  rw [createDirectoryRecursive]
  dsimp only
  split
  · exact ⟨⟨SysCall.noConfusion, sound⟩, fun never => by cases never⟩
  · apply Program.Always.bind
    apply (survives_mkdirs sound).mono
    intro made after sound
    split
    · exact sound
    · exact sound

theorem survives_copyContents (sizes : ComparesSizes same file) (different : place ≠ there)
    {srcFd dstFd : Descriptor} (isSource : srcFd.place = place) (isTarget : dstFd.place = there) :
    ∀ rounds offset state, file.data.length < offset + rounds → offset ≤ file.data.length →
      CopiedTo offset cwd source place there file state →
      Survives same cwd source place there file
        (fun _ after => ∃ count, CopiedTo count cwd source place there file after)
        (SimpleRsync.copyContents srcFd dstFd rounds offset) state
  | 0, offset, state, enough, inside, copied => absurd enough (by omega)
  | rounds + 1, offset, state, enough, inside, copied => by
      rw [SimpleRsync.copyContents]
      have closed : ∀ {code : Int} {count : Nat} {between : SysState},
          CopiedTo count cwd source place there file between →
          Survives same cwd source place there file
            (fun _ after => ∃ count, CopiedTo count cwd source place there file after)
            (Sys.close srcFd >>= fun _ => Sys.close dstFd >>= fun _ => pure code) between :=
        fun copied => survives_close (copied.sound sizes)
          (survives_close (copied.sound sizes) ⟨_, copied⟩)
      apply Survives.quiet (by trivial) (copied.sound sizes)
      intro buffer answered
      rcases faulty_read (by decide) (dataOf_source isSource copied.reads) answered with
        rfl | ⟨fewer, positive, rfl⟩
      · exact closed copied
      split
      · exact closed copied
      · exact closed copied
      · rename_i buffer nonempty isPiece
        cases Option.some.inj isPiece
        apply Program.Always.call ⟨SysCall.noConfusion, copied.sound sizes⟩
        intro written after answered
        rcases copied.write different inside isTarget answered with ⟨more, copiedMore, whole⟩
        split
        · exact closed copiedMore
        · rename_i complete
          cases whole (Classical.not_not.mp complete)
          have isPart : ((file.data.drop offset).take fewer).length ≤ file.data.length - offset := by
            rw [List.length_take, List.length_drop]
            exact Nat.min_le_right _ _
          have more : 0 < ((file.data.drop offset).take fewer).length := by
            apply List.length_pos_iff.mpr
            intro empty
            rw [empty] at nonempty
            exact nonempty rfl
          apply survives_copyContents sizes different isSource isTarget rounds
          · omega
          · omega
          · exact copiedMore

/-- What `sync_file` leaves of the copy, whether it was broken off or not. -/
def LeftOver (same : RegularFile → Node → Bool) (cwd : Place) (source : Bytes)
    (place there : Place) (file : RegularFile) (result : Int) (state : SysState) : Prop :=
  (∃ count, CopiedTo count cwd source place there file state) ∨
    result = -1 ∧ Sound same cwd source place there file state

theorem survives_copyFileData (sizes : ComparesSizes same file) (different : place ≠ there)
    (leads : Path.destination cwd target = there)
    (sound : Sound same cwd source place there file state) :
    Survives same cwd source place there file (LeftOver same cwd source place there file)
      (copyFileData source target) state := by
  rw [copyFileData]
  apply Survives.quiet (by trivial) sound
  intro srcFd openedSource
  split
  · exact Or.inr ⟨rfl, sound⟩
  rename_i srcFd
  rcases faulty_openRead sound.reads openedSource with ⟨isSource, isLength⟩
  apply Program.Always.call ⟨SysCall.noConfusion, sound⟩
  intro dstFd after answered
  rcases sound.openWrite different leads answered with ⟨rfl, rfl⟩ | ⟨dstFd, rfl, isTarget, copied⟩
  · exact survives_close sound (Or.inr ⟨rfl, sound⟩)
  have enough : file.data.length < 0 + (srcFd.length + 1) := by
    rw [isLength]
    change file.data.length < 0 + ((file.data.length : Int).toNat + 1)
    omega
  apply (survives_copyContents sizes different isSource isTarget _ 0 after enough (Nat.zero_le _)
    copied).mono
  exact fun _ _ copied => Or.inl copied

theorem survives_copyFileAttributes (sizes : ComparesSizes same file) (different : place ≠ there)
    (leads : Path.destination cwd target = there) {count : Nat}
    (copied : CopiedTo count cwd source place there file state) :
    Survives same cwd source place there file
      (fun _ after => Sound same cwd source place there file after)
      (copyFileAttributes source target) state := by
  have sound := copied.sound sizes
  rw [copyFileAttributes]
  apply Survives.quiet (by trivial) sound
  intro srcStat _
  split
  · exact sound
  apply Program.Always.call ⟨SysCall.noConfusion, sound⟩
  intro moded between answered
  have copied := copied.chmod different leads answered
  have sound := copied.sound sizes
  split
  · exact sound
  apply Program.Always.call ⟨SysCall.noConfusion, sound⟩
  intro timed after answered
  have copied := copied.utimes different leads answered
  have sound := copied.sound sizes
  split
  · exact sound
  apply Survives.quiet (by trivial) sound
  intro errno _
  split
  · exact sound
  · exact sound

theorem survives_copyFile (sizes : ComparesSizes same file) (different : place ≠ there)
    (leads : Path.destination cwd target = there)
    (sound : Sound same cwd source place there file state) :
    Survives same cwd source place there file
      (fun _ after => Sound same cwd source place there file after)
      (SimpleRsync.copyFile source target) state := by
  rw [SimpleRsync.copyFile]
  split
  · exact ⟨⟨SysCall.noConfusion, sound⟩, fun never => nomatch never⟩
  apply Program.Always.bind
  apply (survives_createDirectoryRecursive sound).mono
  intro created between sound
  split
  · exact sound
  apply Program.Always.bind
  apply (survives_copyFileData sizes different leads sound).mono
  rintro result after (⟨count, copied⟩ | ⟨rfl, sound⟩)
  · split
    · exact copied.sound sizes
    · apply Program.Always.bind
      apply (survives_copyFileAttributes sizes different leads copied).mono
      intro attributes last sound
      split
      · exact sound
      · exact sound
  · exact sound

theorem survives_syncFile (sizes : ComparesSizes same file) (different : place ≠ there)
    (leads : Path.destination cwd target = there)
    (sound : Sound same cwd source place there file state) (dryRun : Bool) :
    Survives same cwd source place there file
      (fun _ after => Sound same cwd source place there file after)
      (SimpleRsync.syncFile source target dryRun) state := by
  rw [SimpleRsync.syncFile]
  apply Survives.quiet (by trivial) sound
  intro srcStat _
  split
  · exact sound
  apply Program.Always.bind
  apply (survives_destinationIsIdentical sound).mono
  rintro identical between rfl
  split
  · exact sound
  split
  · apply Program.Always.call ⟨SysCall.noConfusion, sound⟩
    intro _ after answered
    cases answered with
    | answers answered =>
        cases answered
        exact ⟨sound.reads, sound.sameCwd, sound.trusted⟩
    | fails failure => exact False.elim failure
  · exact survives_copyFile sizes different leads sound

end SimpleRsync

/-! ## What a later run finds -/

/-- A regular file that the path leads to has the bytes. -/
def SameBytes (target : Bytes) (file : RegularFile) (state : SysState) : Prop :=
  ∀ place copy, state.lookup target = some (place, .regular copy) → copy.data = file.data

/-- Without failures the comparison succeeds for the same bytes only. -/
def Trusted (compare : Sys Bool) (target : Bytes) (file : RegularFile) (state : SysState) : Prop :=
  compare.Always Answers (fun call _ => call ≠ .outOfRounds)
    (fun result after => result = true → SameBytes target file after) state

/-- Without failures the program succeeds and leaves the bytes of the source. -/
def Repairs (sync : Sys Value) (success : Value) (target : Bytes) (file : RegularFile)
    (state : SysState) : Prop :=
  sync.Always Answers (fun call _ => call ≠ .outOfRounds) (fun result after => result = success ∧
    (after.lookup target).isSome = true ∧ SameBytes target file after) state

/-- A program that runs alone, and whose loops end within their bounds. -/
abbrev withinBounds : Conduct SysCall SysState :=
  Conduct.alone SysState fun call => call = .outOfRounds

theorem always_of_follows {program : Sys Value}
    (follows : withinBounds.Follows Answers post program state) :
    program.Always Answers (fun call _ => call ≠ .outOfRounds) post state := by
  apply Program.Always.mono_allowed (follows.always fun _ => rfl)
  rintro call between answered rfl
  rcases answered rfl with ⟨response, _⟩
  exact nomatch response

theorem looks_alone (state : SysState) : Looks withinBounds fun other => other = state :=
  Looks.alone (fun _ => trivial) state

theorem works_alone (different : place ≠ there) :
    Works withinBounds source target place there file :=
  Works.alone different (fun _ => trivial) (fun _ _ _ _ => trivial) fun _ _ _ _ => trivial

theorem Sound.sameBytes (leads : Path.destination cwd target = there)
    (sound : Sound same cwd source place there file state)
    (taken : ∀ found ∈ state.lookup target, same file found.2 = true) :
    SameBytes target file state := by
  intro other copy found
  rcases Files.lookup_eq_some.mp found with ⟨resolved, isThere⟩
  rw [← sound.sameCwd] at leads
  cases (Files.resolve_eq resolved).trans leads
  exact sound.trusted copy isThere (taken _ found)

theorem sameBytes_of_writing {copy : RegularFile} (whole : copy.data = file.data)
    (writing : Writing source target place there file copy state) : SameBytes target file state := by
  intro other found isFound
  rw [writing.writes] at isFound
  cases isFound
  exact whole

theorem comparison_eq_true {found : Option (Place × Node)} (taken : comparison file found = true) :
    found.isSome = true ∧ ∀ other ∈ found, identical file other.2 = true := by
  cases found with
  | none => cases taken
  | some found =>
      refine ⟨rfl, fun other member => ?_⟩
      cases member
      exact taken

theorem identical_comparesSizes : ComparesSizes identical file := by
  intro copy taken
  rw [identical, decide_eq_true_eq] at taken
  exact Int.ofNat.inj taken.1

theorem compareFiles_alone (reads : state.lookup source = some (place, .regular file)) :
    withinBounds.Follows Answers
      (fun result after => result = comparison file (state.lookup target) ∧ after = state)
      (compareFiles source target) state := by
  have seesSource : ∀ other, other = state →
      other.lookup source = some (place, .regular file) := by
    rintro other rfl
    exact reads
  apply compareFiles_follows (looks_alone state) seesSource _ rfl
  rintro other rfl
  rfl

theorem Sound.trusts (leads : Path.destination cwd target = there)
    (sound : Sound identical cwd source place there file state) :
    Trusted (compareFiles source target) target file state := by
  apply always_of_follows
  apply Program.Always.mono (compareFiles_alone sound.reads)
  rintro result after ⟨rfl, rfl⟩ taken
  exact sound.sameBytes leads (comparison_eq_true taken).2

theorem copyFile_alone (different : place ≠ there) (leads : Path.destination cwd target = there)
    (reads : state.lookup source = some (place, .regular file)) (sameCwd : state.cwd = cwd) :
    (copyFile source target).Always Answers (fun call _ => call ≠ .outOfRounds)
      (fun outcome after => outcome = .copied ∧ (after.lookup target).isSome = true ∧
        SameBytes target file after) state := by
  apply always_of_follows
  have copied : withinBounds.Follows Answers (fun result after => result = .copied ∧
      ∃ copy : RegularFile, copy.data = file.data ∧ copy.mtime = file.mtime ∧
        Writing source target place there file copy after) (copyFile source target) state := by
    apply copyFile_follows (works_alone different) (looks_alone state) _ _ nofun rfl
    · rintro other rfl
      exact reads
    · rintro other rfl
      rw [sameCwd, leads]
  apply Program.Always.mono copied
  rintro outcome after ⟨rfl, copy, whole, _, writing⟩
  refine ⟨rfl, ?_, sameBytes_of_writing whole writing⟩
  rw [writing.writes]
  rfl

theorem createDirectory_grown (path : Bytes) (state : SysState) :
    (createDirectory path).Always Answers (fun call _ => call ≠ .outOfRounds)
      (fun result after => result = true ∧ Grown (fun _ => True) state after) state :=
  createDirectory_always fun _ _ => trivial

theorem Sound.repairs (different : place ≠ there) (leads : Path.destination cwd target = there)
    (sound : Sound identical cwd source place there file state) :
    Repairs (syncFile source target false) true target file state := by
  have outcome : (syncFileOutcome source target false).Always Answers
      (fun call _ => call ≠ .outOfRounds) (fun outcome after => outcome.returned = true ∧
        (after.lookup target).isSome = true ∧ SameBytes target file after) state := by
    rw [syncFileOutcome]
    apply Program.Always.bind
    apply (always_of_follows (compareFiles_alone sound.reads)).mono
    rintro result between ⟨rfl, rfl⟩
    split
    · rename_i taken
      rcases comparison_eq_true taken with ⟨isSome, each⟩
      exact ⟨rfl, isSome, sound.sameBytes leads each⟩
    rw [if_neg Bool.false_ne_true]
    split
    · apply (copyFile_alone different leads sound.reads sound.sameCwd).mono
      rintro _ after ⟨rfl, copied⟩
      exact ⟨rfl, copied⟩
    · apply Program.Always.bind
      apply (createDirectory_grown _ _).mono
      rintro _ after ⟨rfl, grown⟩
      have sound := sound.grown grown
      apply (copyFile_alone different leads sound.reads sound.sameCwd).mono
      rintro _ last ⟨rfl, copied⟩
      exact ⟨rfl, copied⟩
  rw [Repairs, syncFile]
  apply Program.Always.bind
  apply outcome.mono
  rintro outcome between ⟨returned, isSome, whole⟩
  apply Program.Always.call SysCall.noConfusion
  intro _ after answered
  cases answered
  exact ⟨returned, isSome, whole⟩

namespace SimpleRsync

theorem comparison_eq_true {found : Option (Place × Node)}
    (taken : SimpleRsync.comparison file found = true) :
    found.isSome = true ∧ ∀ other ∈ found, SimpleRsync.identical file other.2 = true := by
  cases found with
  | none => cases taken
  | some found =>
      refine ⟨rfl, fun other member => ?_⟩
      cases member
      exact taken

theorem identical_comparesSizes : ComparesSizes SimpleRsync.identical file := by
  intro copy taken
  rw [SimpleRsync.identical, decide_eq_true_eq] at taken
  exact Int.ofNat.inj taken.1

theorem filesAreIdentical_alone (reads : state.lookup source = some (place, .regular file)) :
    withinBounds.Follows Answers (fun result after =>
        result = SimpleRsync.comparison file (state.lookup target) ∧ after = state)
      (filesAreIdentical source target) state := by
  have seesSource : ∀ other, other = state →
      other.lookup source = some (place, .regular file) := by
    rintro other rfl
    exact reads
  cases isThere : state.lookup target with
  | none =>
      have seesTarget : ∀ other, other = state → other.statOf target = none := by
        rintro other rfl
        rw [SysState.statOf, isThere, Option.map_none]
      rw [filesAreIdentical]
      apply (looks_alone state).stat
        (fun other same => statOf_of_lookup (seesSource other same)) rfl
      intro other same
      apply (looks_alone state).stat seesTarget same
      intro other same
      exact ⟨rfl, same⟩
  | some found =>
      rcases found with ⟨there, node⟩
      have seesTarget : ∀ other, other = state → other.lookup target = some (there, node) := by
        rintro other rfl
        exact isThere
      exact filesAreIdentical_follows (looks_alone state) seesSource seesTarget rfl

theorem destinationIsIdentical_alone (reads : state.lookup source = some (place, .regular file)) :
    withinBounds.Follows Answers (fun result after =>
        result = SimpleRsync.comparison file (state.lookup target) ∧ after = state)
      (destinationIsIdentical source target) state := by
  have seesSource : ∀ other, other = state →
      other.lookup source = some (place, .regular file) := by
    rintro other rfl
    exact reads
  apply destinationIsIdentical_follows (looks_alone state) seesSource _ rfl
  rintro other rfl
  rfl

theorem trusts (leads : Path.destination cwd target = there)
    (sound : Sound SimpleRsync.identical cwd source place there file state) :
    Trusted (filesAreIdentical source target) target file state := by
  apply always_of_follows
  apply Program.Always.mono (filesAreIdentical_alone sound.reads)
  rintro result after ⟨rfl, rfl⟩ taken
  exact sound.sameBytes leads (SimpleRsync.comparison_eq_true taken).2

theorem createDirectoryRecursive_grown (path : Bytes) (state : SysState) :
    (createDirectoryRecursive path).Always Answers (fun call _ => call ≠ .outOfRounds)
      (fun result after => result = 0 ∧ Grown (fun _ => True) state after) state :=
  createDirectoryRecursive_always fun _ _ => trivial

theorem copyFile_alone (different : place ≠ there) (leads : Path.destination cwd target = there)
    (sound : Sound SimpleRsync.identical cwd source place there file state) :
    (SimpleRsync.copyFile source target).Always Answers (fun call _ => call ≠ .outOfRounds)
      (fun result after => result = 0 ∧ (after.lookup target).isSome = true ∧
        SameBytes target file after) state := by
  rw [SimpleRsync.copyFile]
  split
  · exact ⟨SysCall.noConfusion, fun never => nomatch never⟩
  apply Program.Always.bind
  apply (createDirectoryRecursive_grown _ _).mono
  rintro _ between ⟨rfl, grown⟩
  have sound := sound.grown grown
  rw [if_neg (by decide)]
  have copied : withinBounds.Follows Answers (fun result after => result = 0 ∧
      ∃ copy, copy.data = file.data ∧ Writing source target place there file copy after)
      (copyFileData source target) between := by
    apply copyFileData_follows (works_alone different) (looks_alone between) _ _ nofun rfl
    · rintro other rfl
      exact sound.reads
    · rintro other rfl
      rw [sound.sameCwd, leads]
  apply Program.Always.bind
  apply (always_of_follows copied).mono
  rintro _ after ⟨rfl, copy, whole, writing⟩
  rw [if_neg (by decide)]
  apply Program.Always.bind
  apply (always_of_follows
    (copyFileAttributes_follows (works_alone different) writing)).mono
  rintro _ last ⟨rfl, writing⟩
  rw [if_neg (by decide)]
  have wholeLast : ({ file with data := copy.data } : RegularFile).data = file.data := whole
  refine ⟨rfl, ?_, sameBytes_of_writing wholeLast writing⟩
  rw [writing.writes]
  rfl

theorem repairs (different : place ≠ there) (leads : Path.destination cwd target = there)
    (sound : Sound SimpleRsync.identical cwd source place there file state) :
    Repairs (SimpleRsync.syncFile source target false) 0 target file state := by
  rw [Repairs, SimpleRsync.syncFile]
  apply Program.Always.call SysCall.noConfusion
  intro found between answered
  rcases answers_stat answered with ⟨rfl, rfl⟩
  rw [statOf_of_lookup sound.reads]
  apply Program.Always.bind
  apply (always_of_follows (destinationIsIdentical_alone sound.reads)).mono
  rintro result between ⟨rfl, rfl⟩
  split
  · rename_i taken
    rcases SimpleRsync.comparison_eq_true taken with ⟨isSome, each⟩
    exact ⟨rfl, isSome, sound.sameBytes leads each⟩
  rw [if_neg Bool.false_ne_true]
  exact copyFile_alone different leads sound

end SimpleRsync

/-- However a run of `sync_file` goes and wherever it stops, the target is taken for
a copy only if it has the bytes of the source, and a run without failures copies
them. The target is the file that its path comes to, whether all the directories on
the way are there yet or not. -/
theorem syncFile_partialCopies (dryRun : Bool)
    (reads : state.lookup source = some (place, .regular file))
    (different : place ≠ Path.destination state.cwd target) :
    ((∀ copy, state.files (Path.destination state.cwd target) = some (.regular copy) →
        identical file (.regular copy) = true → copy.data = file.data) →
      (syncFile source target dryRun).Always Faulty
        (fun call between => call ≠ .outOfRounds ∧
          Trusted (compareFiles source target) target file between ∧
          Repairs (syncFile source target false) true target file between)
        (fun _ after => Trusted (compareFiles source target) target file after ∧
          Repairs (syncFile source target false) true target file after) state) ∧
    ((∀ copy, state.files (Path.destination state.cwd target) = some (.regular copy) →
        SimpleRsync.identical file (.regular copy) = true → copy.data = file.data) →
      (SimpleRsync.syncFile source target dryRun).Always Faulty
        (fun call between => call ≠ .outOfRounds ∧
          Trusted (SimpleRsync.filesAreIdentical source target) target file between ∧
          Repairs (SimpleRsync.syncFile source target false) 0 target file between)
        (fun _ after => Trusted (SimpleRsync.filesAreIdentical source target) target file after ∧
          Repairs (SimpleRsync.syncFile source target false) 0 target file after) state) := by
  constructor
  · intro trusted
    have survives := survives_syncFile identical_comparesSizes different rfl
      (Sound.mk reads rfl trusted) dryRun
    apply (survives.mono_allowed _).mono
    · intro _ after sound
      exact ⟨sound.trusts rfl, sound.repairs different rfl⟩
    · rintro call between ⟨isCall, sound⟩
      exact ⟨isCall, sound.trusts rfl, sound.repairs different rfl⟩
  · intro trusted
    have survives := SimpleRsync.survives_syncFile SimpleRsync.identical_comparesSizes different rfl
      (Sound.mk reads rfl trusted) dryRun
    apply (survives.mono_allowed _).mono
    · intro _ after sound
      exact ⟨SimpleRsync.trusts rfl sound, SimpleRsync.repairs different rfl sound⟩
    · rintro call between ⟨isCall, sound⟩
      exact ⟨isCall, SimpleRsync.trusts rfl sound, SimpleRsync.repairs different rfl sound⟩

/-- A file of three bytes at the root, and nothing else. -/
def threeBytes : RegularFile := ⟨[1, 2, 3], 5, 420⟩

def oneFile : SysState where
  files := fun place =>
    if place = [] then some (.directory 0 0)
    else if place = [[97]] then some (.regular threeBytes)
    else none
  cwd := []
  opened := []
  reported := []
  outcomes := []

theorem syncFile_partialCopies_oneFile :
    (syncFile [47, 97] [47, 98] false).Always Faulty
      (fun call between => call ≠ .outOfRounds ∧
        Trusted (compareFiles [47, 97] [47, 98]) [47, 98] threeBytes between ∧
        Repairs (syncFile [47, 97] [47, 98] false) true [47, 98] threeBytes between)
      (fun _ after => Trusted (compareFiles [47, 97] [47, 98]) [47, 98] threeBytes after ∧
        Repairs (syncFile [47, 97] [47, 98] false) true [47, 98] threeBytes after) oneFile := by
  have reads : oneFile.lookup [47, 97] = some ([[97]], .regular threeBytes) := rfl
  apply (syncFile_partialCopies false reads (by decide)).1
  intro copy isThere _
  cases isThere

end Runs

end Apue.Sync
