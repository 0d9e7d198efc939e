import Apue.Foundation.Destinations
import Apue.Sync.Comparison

/-! # How a file is copied

The copy loops, among other threads that leave the source and the target alone.
-/

namespace Apue.Sync

open Apue.Foundation

/-! ## A file at a place -/

namespace SysState

variable {state : SysState} {place other : Place} {copy : RegularFile} {path : Bytes} {node : Node}

theorem setNode_files_same (state : SysState) (place : Place) (node : Node) :
    (state.setNode place node).files place = some node :=
  Function.update_self _ _ _

theorem setNode_files_other (node : Node) (different : other ≠ place) :
    (state.setNode place node).files other = state.files other :=
  Function.update_of_ne different _ _

/-- A file in the place of nothing or of a file leaves the directories as they
are. -/
theorem setNode_isDirectory (notDirectory : state.files.isDirectory place = false)
    (copy : RegularFile) (other : Place) :
    (state.setNode place (.regular copy)).files.isDirectory other =
      state.files.isDirectory other := by
  by_cases same : other = place
  · subst same
    rw [notDirectory, Files.isDirectory, setNode_files_same]
  · rw [Files.isDirectory, Files.isDirectory, setNode_files_other _ same]

theorem setNode_resolve (notDirectory : state.files.isDirectory place = false)
    (copy : RegularFile) (path : Bytes) :
    (state.setNode place (.regular copy)).files.resolve state.cwd path =
      state.files.resolve state.cwd path :=
  Files.resolve_congr (setNode_isDirectory notDirectory copy) _ _

theorem setNode_lookup_other (notDirectory : state.files.isDirectory place = false)
    (copy : RegularFile) (found : state.lookup path = some (other, node))
    (different : other ≠ place) :
    (state.setNode place (.regular copy)).lookup path = some (other, node) := by
  rcases Files.lookup_eq_some.mp found with ⟨resolved, there⟩
  apply Files.lookup_eq_some.mpr
  exact ⟨(setNode_resolve notDirectory copy path).trans resolved,
    (setNode_files_other _ different).trans there⟩

theorem setNode_lookup_same (notDirectory : state.files.isDirectory place = false)
    (copy : RegularFile) (resolved : state.files.resolve state.cwd path = some place) :
    (state.setNode place (.regular copy)).lookup path = some (place, .regular copy) :=
  Files.lookup_eq_some.mpr
    ⟨(setNode_resolve notDirectory copy path).trans resolved, setNode_files_same _ _ _⟩

theorem isDirectory_of_regular (there : state.files place = some (.regular copy)) :
    state.files.isDirectory place = false := by
  rw [Files.isDirectory, there]

end SysState

/-! ## Among others -/

/-- What a program may do with a target, and what it can take for granted of it and
of the source. -/
structure Works (conduct : Conduct SysCall SysState) (source target : Bytes) (place there : Place)
    (file : RegularFile) : Prop where
  different : place ≠ there
  quiet : ∀ state, conduct.guarantee state state
  keepsSource : ∀ before between, conduct.rely before between →
    before.lookup source = some (place, .regular file) →
    between.lookup source = some (place, .regular file)
  keepsTarget : ∀ before between node, conduct.rely before between →
    before.lookup target = some (there, node) → between.lookup target = some (there, node)
  keepsOpened : ∀ before between, conduct.rely before between →
    target ∈ before.opened → target ∈ between.opened
  change : ∀ state copy changed, state.lookup target = some (there, .regular copy) →
    conduct.guarantee state (state.setNode there (.regular changed))
  opens : ∀ state copy, state.files.resolve state.cwd target = some there →
    state.files.isDirectory there = false →
    conduct.guarantee state
      { state.setNode there (.regular copy) with opened := state.opened ++ [target] }

theorem Works.alone {guarantee : SysState → SysState → Prop} {answered : SysCall → Prop}
    {source target : Bytes} {place there : Place} {file : RegularFile} (different : place ≠ there)
    (quiet : ∀ state, guarantee state state)
    (change : ∀ state copy changed, state.lookup target = some (there, .regular copy) →
      guarantee state (state.setNode there (.regular changed)))
    (opens : ∀ state copy, state.files.resolve state.cwd target = some there →
      state.files.isDirectory there = false →
      guarantee state
        { state.setNode there (.regular copy) with opened := state.opened ++ [target] }) :
    Works ⟨Eq, guarantee, answered⟩ source target place there file where
  different := different
  quiet := quiet
  keepsSource := by
    intro before between same found
    rw [← same]
    exact found
  keepsTarget := by
    intro before between node same found
    rw [← same]
    exact found
  keepsOpened := by
    intro before between same opened
    rw [← same]
    exact opened
  change := change
  opens := opens

/-- The source is what it is, and the target is a file that was opened for
writing. -/
structure Writing (source target : Bytes) (place there : Place) (file copy : RegularFile)
    (state : SysState) : Prop where
  reads : state.lookup source = some (place, .regular file)
  writes : state.lookup target = some (there, .regular copy)
  opened : target ∈ state.opened

section Works

variable {conduct : Conduct SysCall SysState} {source target : Bytes} {place there : Place}
  {file copy : RegularFile} {state : SysState} {Value : Type} {post : Value → SysState → Prop}

theorem Works.looks (works : Works conduct source target place there file) (copy : RegularFile) :
    Looks conduct (Writing source target place there file copy) where
  stable := fun _ _ relied writing =>
    ⟨works.keepsSource _ _ relied writing.reads, works.keepsTarget _ _ _ relied writing.writes,
      works.keepsOpened _ _ relied writing.opened⟩
  quiet := works.quiet

theorem Writing.setNode (works : Works conduct source target place there file)
    (writing : Writing source target place there file copy state) (changed : RegularFile) :
    Writing source target place there file changed (state.setNode there (.regular changed)) where
  reads := SysState.setNode_lookup_other
    (SysState.isDirectory_of_regular (Files.lookup_eq_some.mp writing.writes).2) changed
    writing.reads works.different
  writes := SysState.setNode_lookup_same
    (SysState.isDirectory_of_regular (Files.lookup_eq_some.mp writing.writes).2) changed
    (Files.lookup_eq_some.mp writing.writes).1
  opened := writing.opened

/-- A call that changes the target and has one answer. -/
theorem Works.changes (works : Works conduct source target place there file)
    {command : SysCall} {answer : SysResponse command} {good : RegularFile → Prop}
    {rest : SysResponse command → Sys Value}
    (answers : ∀ state, Writing source target place there file copy state →
      (∃ after, Answers command state answer after) ∧
        ∀ response after, Answers command state response after → response = answer ∧
          ∃ changed, good changed ∧ after = state.setNode there (.regular changed))
    (here : Writing source target place there file copy state)
    (continued : ∀ changed state, good changed →
      Writing source target place there file changed state →
      conduct.Follows Answers post (rest answer) state) :
    conduct.Follows Answers post (Program.perform command >>= rest) state := by
  apply Conduct.Follows.call
  · intro _ between relied
    exact ⟨answer, (answers between ((works.looks copy).stable _ _ relied here)).1⟩
  · intro between relied response after answered
    have writing := (works.looks copy).stable _ _ relied here
    rcases (answers between writing).2 response after answered with ⟨rfl, changed, isGood, rfl⟩
    exact ⟨works.change between copy changed writing.writes,
      continued changed _ isGood (writing.setNode works changed)⟩

/-- Opening the target empties it. -/
theorem answers_openWrite {after : SysState} {response : Option Descriptor}
    (different : place ≠ there) (reads : state.lookup source = some (place, .regular file))
    (leads : Path.destination state.cwd target = there)
    (answered : Answers (.openWrite target) state response after) :
    ∃ number copy, response = some ⟨number, there, 0⟩ ∧ copy.data = [] ∧
      state.files.resolve state.cwd target = some there ∧
      state.files.isDirectory there = false ∧
      after = { state.setNode there (.regular copy) with opened := state.opened ++ [target] } ∧
      Writing source target place there file copy after := by
  have opened : ∀ copy, state.files.resolve state.cwd target = some there →
      state.files.isDirectory there = false →
      Writing source target place there file copy
        { state.setNode there (.regular copy) with opened := state.opened ++ [target] } :=
    fun copy resolved notDirectory =>
      { reads := SysState.setNode_lookup_other notDirectory copy reads different
        writes := SysState.setNode_lookup_same notDirectory copy resolved
        opened := List.mem_append_right _ (List.mem_singleton.mpr rfl) }
  cases answered with
  | openExisting number now found =>
      rcases Files.lookup_eq_some.mp found with ⟨resolved, isThere⟩
      cases (Files.resolve_eq resolved).trans leads
      have notDirectory := SysState.isDirectory_of_regular isThere
      exact ⟨number, _, rfl, rfl, resolved, notDirectory, rfl, opened _ resolved notDirectory⟩
  | openNew number now resolved absent =>
      cases (Files.resolve_eq resolved).trans leads
      have notDirectory : state.files.isDirectory there = false := by
        rw [Files.isDirectory, absent]
      exact ⟨number, _, rfl, rfl, resolved, notDirectory, rfl, opened _ resolved notDirectory⟩

/-- A path that leads to nothing or to a file can be opened. -/
theorem exists_openWrite (resolved : state.files.resolve state.cwd target = some there)
    (notDirectory : state.files.isDirectory there = false) :
    ∃ response after, Answers (.openWrite target) state response after := by
  cases found : state.files there with
  | none => exact ⟨_, _, .openNew 0 0 resolved found⟩
  | some node =>
      cases node with
      | directory size mtime =>
          rw [Files.isDirectory, found] at notDirectory
          cases notDirectory
      | regular copy =>
          exact ⟨_, _, .openExisting 0 0 (Files.lookup_eq_some.mpr ⟨resolved, found⟩)⟩

theorem Works.openWrite (works : Works conduct source target place there file)
    {holds : SysState → Prop} {rest : Option Descriptor → Sys Value} (looks : Looks conduct holds)
    (seesSource : ∀ state, holds state → state.lookup source = some (place, .regular file))
    (destination : ∀ state, holds state → Path.destination state.cwd target = there)
    (possible : conduct.answered (.openWrite target) → ∀ state, holds state →
      state.files.resolve state.cwd target = some there ∧ state.files.isDirectory there = false)
    (here : holds state)
    (continued : ∀ number copy state, copy.data = [] →
      Writing source target place there file copy state →
      conduct.Follows Answers post (rest (some ⟨number, there, 0⟩)) state) :
    conduct.Follows Answers post (Sys.openWrite target >>= rest) state := by
  apply Conduct.Follows.call
  · intro answered between relied
    rcases possible answered between (looks.stable _ _ relied here) with ⟨resolved, notDirectory⟩
    exact exists_openWrite resolved notDirectory
  · intro between relied response after answered
    have holdsBetween := looks.stable _ _ relied here
    rcases answers_openWrite works.different (seesSource between holdsBetween)
      (destination between holdsBetween) answered with
      ⟨number, copy, rfl, empty, resolved, notDirectory, rfl, writing⟩
    exact ⟨works.opens between copy resolved notDirectory, continued number copy _ empty writing⟩

/-- A write behind what is there already. -/
theorem Works.write (works : Works conduct source target place there file) {number length : Nat}
    {offset : Nat} {text : Bytes} {rest : Option Nat → Sys Value}
    (atEnd : copy.data.length = offset) (here : Writing source target place there file copy state)
    (continued : ∀ changed state, changed.data = copy.data ++ text →
      Writing source target place there file changed state →
      conduct.Follows Answers post (rest (some text.length)) state) :
    conduct.Follows Answers post (Sys.write ⟨number, there, length⟩ offset text >>= rest) state := by
  have answers : ∀ state, Writing source target place there file copy state →
      (∃ after, Answers (.write ⟨number, there, length⟩ offset text) state
        (some text.length : Option Nat) after) ∧
      ∀ response after, Answers (.write ⟨number, there, length⟩ offset text) state response after →
        response = (some text.length : Option Nat) ∧ ∃ changed : RegularFile,
          changed.data = copy.data ++ text ∧ after = state.setNode there (.regular changed) := by
    intro state writing
    have found := (Files.lookup_eq_some.mp writing.writes).2
    refine ⟨⟨_, .write 0 found⟩, fun response after answered => ?_⟩
    cases answered with
    | write now isThere =>
        rw [found] at isThere
        cases isThere
        refine ⟨rfl, _, ?_, rfl⟩
        rw [← atEnd, pwrite_end]
  exact works.changes answers here continued

theorem Works.utimes (works : Works conduct source target place there file) (mtime : Int)
    {rest : Bool → Sys Value} (here : Writing source target place there file copy state)
    (continued : ∀ state, Writing source target place there file { copy with mtime := mtime } state →
      conduct.Follows Answers post (rest true) state) :
    conduct.Follows Answers post (Sys.utimes target mtime >>= rest) state := by
  have answers : ∀ state, Writing source target place there file copy state →
      (∃ after, Answers (.utimes target mtime) state true after) ∧
      ∀ response after, Answers (.utimes target mtime) state response after →
        response = true ∧ ∃ changed : RegularFile, changed = { copy with mtime := mtime } ∧
          after = state.setNode there (.regular changed) := by
    intro state writing
    refine ⟨⟨_, .utimes mtime writing.writes⟩, fun response after answered => ?_⟩
    cases answered with
    | utimes _ found =>
        rw [writing.writes] at found
        cases found
        exact ⟨rfl, _, rfl, rfl⟩
  apply works.changes answers here
  rintro changed state rfl writing
  exact continued state writing

theorem Works.chmod (works : Works conduct source target place there file) (mode : Nat)
    {rest : Bool → Sys Value} (here : Writing source target place there file copy state)
    (continued : ∀ state, Writing source target place there file { copy with mode := mode } state →
      conduct.Follows Answers post (rest true) state) :
    conduct.Follows Answers post (Sys.chmod target mode >>= rest) state := by
  have answers : ∀ state, Writing source target place there file copy state →
      (∃ after, Answers (.chmod target mode) state true after) ∧
      ∀ response after, Answers (.chmod target mode) state response after →
        response = true ∧ ∃ changed : RegularFile, changed = { copy with mode := mode } ∧
          after = state.setNode there (.regular changed) := by
    intro state writing
    refine ⟨⟨_, .chmod mode writing.writes⟩, fun response after answered => ?_⟩
    cases answered with
    | chmod _ found =>
        rw [writing.writes] at found
        cases found
        exact ⟨rfl, _, rfl, rfl⟩
  apply works.changes answers here
  rintro changed state rfl writing
  exact continued state writing

/-! ## The loops -/

/-- The next piece of the source behind what was copied. -/
theorem take_append_piece (data : Bytes) (offset count : Nat) :
    data.take offset ++ (data.drop offset).take count =
      data.take (offset + ((data.drop offset).take count).length) := by
  rw [List.take_add, List.length_take]
  rcases Nat.le_total count (data.drop offset).length with long | short
  · rw [Nat.min_eq_left long]
  · rw [Nat.min_eq_right short, List.take_length, List.take_of_length_le short]

/-- The loop of `sync_file` copies everything. -/
theorem copyContents_follows (works : Works conduct source target place there file)
    {number1 number2 length1 length2 : Nat} :
    ∀ rounds offset copy state, file.data.length < offset + rounds → offset ≤ file.data.length →
      copy.data = file.data.take offset → Writing source target place there file copy state →
      conduct.Follows Answers (fun result after => result = true ∧
          ∃ copy, copy.data = file.data ∧ Writing source target place there file copy after)
        (copyContents ⟨number1, place, length1⟩ ⟨number2, there, length2⟩ rounds offset) state
  | 0, offset, copy, state, enough, inside, sofar, here => absurd enough (by omega)
  | rounds + 1, offset, copy, state, enough, inside, sofar, here => by
      have sees : ∀ state, Writing source target place there file copy state →
          state.dataOf ⟨number1, place, length1⟩ = some file.data :=
        fun state writing => dataOf_file writing.reads
      rw [copyContents]
      apply (works.looks copy).read sees here
      intro state here
      rw [Option.map_some]
      split
      · rename_i missing
        cases missing
      · rename_i empty
        rw [Option.some.injEq] at empty
        refine ⟨rfl, copy, ?_, here⟩
        rw [sofar, ← List.append_nil (file.data.take offset), ← take_eq_nil (by decide) empty,
          List.take_append_drop]
      · rename_i buffer nonempty isPiece
        rw [Option.some.injEq] at isPiece
        have positive : 0 < buffer.length := by
          apply List.length_pos_iff.mpr
          rintro rfl
          exact nonempty rfl
        have lengths : buffer.length ≤ file.data.length - offset := by
          rw [← isPiece, List.length_take, List.length_drop]
          omega
        apply works.write (by rw [sofar, List.length_take_of_le inside]) here
        intro changed state appended here
        rw [if_neg (by simp)]
        apply copyContents_follows works rounds
        · omega
        · omega
        · rw [appended, sofar, ← isPiece, take_append_piece]
        · exact here

/-- Behind the loop the target has the bytes and the time of the source. -/
theorem copyFile_follows (works : Works conduct source target place there file)
    {holds : SysState → Prop} (looks : Looks conduct holds)
    (seesSource : ∀ state, holds state → state.lookup source = some (place, .regular file))
    (destination : ∀ state, holds state → Path.destination state.cwd target = there)
    (possible : conduct.answered (.openWrite target) → ∀ state, holds state →
      state.files.resolve state.cwd target = some there ∧ state.files.isDirectory there = false)
    (here : holds state) :
    conduct.Follows Answers (fun result after => result = .copied ∧
        ∃ copy : RegularFile, copy.data = file.data ∧ copy.mtime = file.mtime ∧
          Writing source target place there file copy after)
      (copyFile source target) state := by
  rw [copyFile]
  apply looks.openRead seesSource here
  intro number1 state here
  apply works.openWrite looks seesSource destination possible here
  intro number2 copy state empty here
  apply Conduct.Follows.bind
  have enough : file.data.length < 0 + ((nodeStat (.regular file)).size.toNat + 1) := by
    change file.data.length < 0 + ((file.data.length : Int).toNat + 1)
    omega
  apply Program.Always.mono (copyContents_follows works _ 0 copy state enough (Nat.zero_le _)
    empty here)
  rintro result state ⟨rfl, copy, same, here⟩
  rw [if_pos rfl]
  apply (works.looks copy).fstat (fun state writing =>
    (Files.lookup_eq_some.mp writing.reads).2) here
  intro state here
  apply (works.looks copy).close here
  intro state here
  apply works.utimes file.mtime here
  intro state here
  apply (works.looks { copy with mtime := file.mtime }).close here
  intro state here
  exact ⟨rfl, { copy with mtime := file.mtime }, same, rfl, here⟩

/-! ### The simple synchroniser -/

namespace SimpleRsync

/-- The loop of `copy_file_data` copies everything. -/
theorem copyContents_follows (works : Works conduct source target place there file)
    {number1 number2 length1 length2 : Nat} :
    ∀ rounds offset copy state, file.data.length < offset + rounds → offset ≤ file.data.length →
      copy.data = file.data.take offset → Writing source target place there file copy state →
      conduct.Follows Answers (fun result after => result = 0 ∧
          ∃ copy, copy.data = file.data ∧ Writing source target place there file copy after)
        (copyContents ⟨number1, place, length1⟩ ⟨number2, there, length2⟩ rounds offset) state
  | 0, offset, copy, state, enough, inside, sofar, here => absurd enough (by omega)
  | rounds + 1, offset, copy, state, enough, inside, sofar, here => by
      have sees : ∀ state, Writing source target place there file copy state →
          state.dataOf ⟨number1, place, length1⟩ = some file.data :=
        fun state writing => dataOf_file writing.reads
      rw [copyContents]
      apply (works.looks copy).read sees here
      intro state here
      rw [Option.map_some]
      split
      · rename_i missing
        cases missing
      · rename_i empty
        rw [Option.some.injEq] at empty
        apply (works.looks copy).close here
        intro state here
        apply (works.looks copy).close here
        intro state here
        refine ⟨rfl, copy, ?_, here⟩
        rw [sofar, ← List.append_nil (file.data.take offset), ← take_eq_nil (by decide) empty,
          List.take_append_drop]
      · rename_i buffer nonempty isPiece
        rw [Option.some.injEq] at isPiece
        have positive : 0 < buffer.length := by
          apply List.length_pos_iff.mpr
          rintro rfl
          exact nonempty rfl
        have lengths : buffer.length ≤ file.data.length - offset := by
          rw [← isPiece, List.length_take, List.length_drop]
          omega
        apply works.write (by rw [sofar, List.length_take_of_le inside]) here
        intro changed state appended here
        rw [if_neg (by simp)]
        apply copyContents_follows works rounds
        · omega
        · omega
        · rw [appended, sofar, ← isPiece, take_append_piece]
        · exact here

theorem copyFileData_follows (works : Works conduct source target place there file)
    {holds : SysState → Prop} (looks : Looks conduct holds)
    (seesSource : ∀ state, holds state → state.lookup source = some (place, .regular file))
    (destination : ∀ state, holds state → Path.destination state.cwd target = there)
    (possible : conduct.answered (.openWrite target) → ∀ state, holds state →
      state.files.resolve state.cwd target = some there ∧ state.files.isDirectory there = false)
    (here : holds state) :
    conduct.Follows Answers (fun result after => result = 0 ∧
        ∃ copy, copy.data = file.data ∧ Writing source target place there file copy after)
      (copyFileData source target) state := by
  rw [copyFileData]
  apply looks.openRead seesSource here
  intro number1 state here
  apply works.openWrite looks seesSource destination possible here
  intro number2 copy state empty here
  have enough : file.data.length < 0 + ((nodeStat (.regular file)).size.toNat + 1) := by
    change file.data.length < 0 + ((file.data.length : Int).toNat + 1)
    omega
  exact copyContents_follows works _ 0 copy state enough (Nat.zero_le _) empty here

theorem answers_chown {state after : SysState} {path : Bytes} {response : Int}
    (answered : Answers (.chown path) state response after) :
    (response = 0 ∨ response = EPERM) ∧ after = state := by
  cases answered with
  | chown found => exact ⟨Or.inl rfl, rfl⟩
  | chownForbidden found => exact ⟨Or.inr rfl, rfl⟩

/-- The target gets the mode and the time of the source. -/
theorem copyFileAttributes_follows (works : Works conduct source target place there file)
    (here : Writing source target place there file copy state) :
    conduct.Follows Answers (fun result after => result = 0 ∧
        Writing source target place there file { file with data := copy.data } after)
      (copyFileAttributes source target) state := by
  rw [copyFileAttributes]
  apply (works.looks copy).stat (fun state writing => statOf_of_lookup writing.reads) here
  intro state here
  apply works.chmod file.mode here
  intro state here
  apply works.utimes file.mtime here
  intro state here
  have looks := works.looks { file with data := copy.data }
  apply Conduct.Follows.call
  · intro _ between relied
    exact ⟨_, _, .chown (looks.stable _ _ relied here).writes⟩
  · intro between relied response after answered
    have writing := looks.stable _ _ relied here
    rcases answers_chown answered with ⟨rfl | rfl, rfl⟩
    · exact ⟨works.quiet _, rfl, writing⟩
    · exact ⟨works.quiet _, rfl, writing⟩

end SimpleRsync

end Works

end Apue.Sync
