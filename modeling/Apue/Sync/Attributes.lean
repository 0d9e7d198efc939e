import Apue.Sync.SingleFiles
import Apue.Sync.Traversals

/-! # The attributes of synchronised files

`sync_file` copies the permission bits and the time of a file behind its bytes, but a
file that it finds to be the same it leaves as it is. What a run of `sync_directory`
leaves of a whole tree is put together from what it does with each file.
-/

namespace Apue.Sync.SimpleRsync

open Apue.Foundation

/-! ## One file -/

/-- The answers when everything succeeds. A call of `chown` may take away the bits
that have others run the file in the name of its owner or its group. -/
inductive OwnerAnswers : (call : SysCall) → SysState → SysResponse call → SysState → Prop
  | answers {call : SysCall} {before after : SysState} {response : SysResponse call}
      (answered : Answers call before response after) : OwnerAnswers call before response after
  | chown {path : Bytes} {before : SysState} {place : Place} {file : RegularFile} (mode : Nat)
      (found : before.lookup path = some (place, .regular file))
      (kept : mode % 1024 = file.mode % 1024) :
      OwnerAnswers (.chown path) before (0 : Int)
        (before.setNode place (.regular { file with mode := mode }))

/-- The same permission bits and the same time of the last change. -/
def SameAttributes (file copy : RegularFile) : Prop :=
  copy.mode % 512 = file.mode % 512 ∧ copy.mtime = file.mtime

/-- Nothing changes but what is at one place, and no directory comes or goes. -/
structure OnlyAt (there : Place) (before after : SysState) : Prop where
  sameCwd : after.cwd = before.cwd
  directories : ∀ place, after.files.isDirectory place = before.files.isDirectory place
  others : ∀ place, place ≠ there → after.files place = before.files place

section OneFile

variable {state before between after : SysState} {source target : Bytes} {place there : Place}
  {file copy : RegularFile}

theorem owner_always {Value : Type} {good : Value → Prop} {program : Sys Value}
    {allowed : SysCall → SysState → Prop} {post : Value → SysState → Prop}
    (unowned : OnlyCalls SysCall.Unowned good program)
    (always : program.Always Answers allowed post state) :
    program.Always OwnerAnswers allowed post state := by
  apply unowned.mono_step always
  intro call unowned before response after answered
  cases answered with
  | answers answered => exact answered
  | chown mode found kept => exact unowned.elim

theorem OnlyAt.refl (there : Place) (state : SysState) : OnlyAt there state state :=
  ⟨rfl, fun _ => rfl, fun _ _ => rfl⟩

theorem OnlyAt.trans (first : OnlyAt there before between) (second : OnlyAt there between after) :
    OnlyAt there before after where
  sameCwd := second.sameCwd.trans first.sameCwd
  directories := fun place => (second.directories place).trans (first.directories place)
  others := fun place different => (second.others place different).trans (first.others place different)

theorem OnlyAt.setNode (notDirectory : state.files.isDirectory there = false)
    (changed : RegularFile) (opened : List Bytes) :
    OnlyAt there state { state.setNode there (.regular changed) with opened := opened } where
  sameCwd := rfl
  directories := SysState.setNode_isDirectory notDirectory changed
  others := fun _ different => SysState.setNode_files_other _ different

/-- A program that runs alone and changes one file. -/
abbrev changingOnly (there : Place) : Conduct SysCall SysState :=
  ⟨Eq, OnlyAt there, fun call => call = .outOfRounds⟩

theorem works_changingOnly (different : place ≠ there) :
    Works (changingOnly there) source target place there file :=
  Works.alone different (OnlyAt.refl there)
    (fun state _ changed found => OnlyAt.setNode
      (SysState.isDirectory_of_regular (Files.lookup_eq_some.mp found).2) changed state.opened)
    fun _ copy _ notDirectory => OnlyAt.setNode notDirectory copy _

/-- The bytes are copied, and nothing else changes. -/
theorem copyFileData_only (different : place ≠ there)
    (leads : Path.destination state.cwd target = there)
    (reads : state.lookup source = some (place, .regular file)) :
    (copyFileData source target).Always OwnerAnswers (fun call _ => call ≠ .outOfRounds)
      (fun result after => result = 0 ∧ OnlyAt there state after ∧
        ∃ copy, Writing source target place there file copy after) state := by
  have copied : (changingOnly there).Follows Answers (fun result after => result = 0 ∧
      ∃ copy, copy.data = file.data ∧ Writing source target place there file copy after)
      (copyFileData source target) state := by
    apply copyFileData_follows (works_changingOnly different) (Looks.alone (OnlyAt.refl there) state)
      _ _ nofun rfl
    · rintro other rfl
      exact reads
    · rintro other rfl
      exact leads
  have guaranteed := Conduct.Follows.guaranteed (OnlyAt.refl there)
    (fun _ _ _ first second => first.trans second) copied
  apply owner_always (unowned_copyFileData source target)
  apply ((guaranteed.always fun _ => rfl).mono_allowed _).mono
  · intro result after outcome
    rcases outcome with ⟨⟨isZero, copy, _, writing⟩, only⟩
    exact ⟨isZero, only, copy, writing⟩
  · intro call between answered isOut
    rcases answered isOut with ⟨response, _⟩
    subst isOut
    exact nomatch response

theorem OnlyAt.change (different : place ≠ there)
    (writing : Writing source target place there file copy state) (changed : RegularFile) :
    OnlyAt there state (state.setNode there (.regular changed)) ∧
      Writing source target place there file changed (state.setNode there (.regular changed)) :=
  ⟨OnlyAt.setNode (SysState.isDirectory_of_regular (Files.lookup_eq_some.mp writing.writes).2) changed
    state.opened, writing.setNode (works_changingOnly different) changed⟩

/-- What `chown` does to the mode changes no permission bit. -/
theorem copyFileAttributes_only (different : place ≠ there)
    (writing : Writing source target place there file copy state) :
    (copyFileAttributes source target).Always OwnerAnswers (fun call _ => call ≠ .outOfRounds)
      (fun result after => result = 0 ∧ OnlyAt there state after ∧ ∃ changed,
        SameAttributes file changed ∧ Writing source target place there file changed after)
      state := by
  apply Program.Always.call SysCall.noConfusion
  intro found between answered
  cases answered with
  | answers answered =>
  rcases answers_stat answered with ⟨rfl, rfl⟩
  rw [statOf_of_lookup writing.reads]
  apply Program.Always.call SysCall.noConfusion
  intro moded between answered
  cases answered with
  | answers answered =>
  cases answered with
  | chmod _ isThere =>
  rw [writing.writes] at isThere
  cases isThere
  rcases OnlyAt.change different writing { copy with mode := file.mode } with ⟨first, writingMode⟩
  apply Program.Always.call SysCall.noConfusion
  intro timed between answered
  cases answered with
  | answers answered =>
  cases answered with
  | utimes _ isThere =>
  have isTarget := writingMode.writes.symm.trans isThere
  cases isTarget
  rcases OnlyAt.change different writingMode { copy with mode := file.mode, mtime := file.mtime } with
    ⟨second, writingTime⟩
  apply Program.Always.call SysCall.noConfusion
  intro errno after answered
  cases answered with
  | answers answered =>
      have same : SameAttributes file { copy with mode := file.mode, mtime := file.mtime } :=
        ⟨rfl, rfl⟩
      rcases answers_chown answered with ⟨rfl | rfl, rfl⟩
      · exact ⟨rfl, first.trans second, _, same, writingTime⟩
      · exact ⟨rfl, first.trans second, _, same, writingTime⟩
  | chown mode isThere kept =>
      have isTarget := writingTime.writes.symm.trans isThere
      cases isTarget
      rcases OnlyAt.change different writingTime
        { copy with mode := mode, mtime := file.mtime } with ⟨third, writingOwner⟩
      have same : SameAttributes file { copy with mode := mode, mtime := file.mtime } := by
        constructor
        · change mode % 1024 = file.mode % 1024 at kept
          change mode % 512 = file.mode % 512
          omega
        · rfl
      exact ⟨rfl, (first.trans second).trans third, _, same, writingOwner⟩

/-- The directories above a file are made, and nothing else. -/
theorem parents_grown {front name : Bytes} (short : (front ++ Path.SLASH :: name).length < MAX_PATH_LEN)
    (proper : Path.Proper name) (notSlashes : trimSlashes front ≠ []) :
    (createDirectoryRecursive (dirname (front ++ Path.SLASH :: name))).Always OwnerAnswers
      (fun call _ => call ≠ .outOfRounds) (fun result after => result = 0 ∧
        Grown (Above state.cwd (front ++ Path.SLASH :: name)) state after) state := by
  rw [dirname_join proper.nonempty proper.noSlash, if_neg notSlashes]
  have shortFront : (trimSlashes front).length < MAX_PATH_LEN := by
    have lengths := (trimSlashes_isPrefix front).length_le
    rw [List.length_append] at short
    omega
  have isLadder : rungs (trimSlashes front) = ladder (trimSlashes front) := by
    rw [rungs, take_of_short shortFront, noSlash_taken_off (trimSlashes_trimSlashes front)]
  apply owner_always (unowned_createDirectoryRecursive _)
  apply createDirectoryRecursive_always
  intro rung member
  rw [isLadder] at member
  exact Or.inr ⟨rung, ladder_trimSlashes notSlashes member, rfl⟩

/-- Directories are new where there was nothing, and one place may have changed. -/
structure Touched (ways : Place → Prop) (there : Place) (before after : SysState) : Prop where
  sameCwd : after.cwd = before.cwd
  directories : ∀ place, before.files.isDirectory place = true →
    after.files.isDirectory place = true
  others : ∀ place, place ≠ there → after.files place = before.files place ∨
    before.files place = none ∧ ways place ∧ after.files.isDirectory place = true

theorem Touched.refl (ways : Place → Prop) (there : Place) (state : SysState) :
    Touched ways there state state :=
  ⟨rfl, fun _ directory => directory, fun _ _ => Or.inl rfl⟩

theorem Touched.of_grown {ways : Place → Prop} (grown : Grown ways before between)
    (only : OnlyAt there between after) : Touched ways there before after where
  sameCwd := only.sameCwd.trans grown.sameCwd
  directories := by
    intro place directory
    rw [only.directories]
    exact grown.isDirectory directory
  others := by
    intro place different
    rw [only.others place different, only.directories]
    exact grown.files place

/-- The destination has what the source had, and nothing but a file was there before. -/
structure CopiedFile (file : RegularFile) (there : Place) (before after : SysState) : Prop where
  notDirectory : before.files.isDirectory there = false
  copied : ∃ copy, after.files there = some (.regular copy) ∧ SameAttributes file copy

theorem copyFile_touches {front name : Bytes}
    (short : (front ++ Path.SLASH :: name).length < MAX_PATH_LEN)
    (proper : Path.Proper name) (notSlashes : trimSlashes front ≠ []) (different : place ≠ there)
    (leads : Path.destination state.cwd (front ++ Path.SLASH :: name) = there)
    (reads : state.lookup source = some (place, .regular file)) :
    (SimpleRsync.copyFile source (front ++ Path.SLASH :: name)).Always OwnerAnswers
      (fun call _ => call ≠ .outOfRounds) (fun result after => result = 0 ∧
        Touched (Above state.cwd (front ++ Path.SLASH :: name)) there state after ∧
        CopiedFile file there state after) state := by
  rw [SimpleRsync.copyFile, if_neg (Nat.not_le.mpr short)]
  apply Program.Always.bind
  apply (parents_grown short proper notSlashes).mono
  intro result parents outcome
  rcases outcome with ⟨rfl, grown⟩
  rw [if_neg (by decide)]
  apply Program.Always.bind
  apply (copyFileData_only different (by rw [grown.sameCwd]; exact leads) (grown.lookup reads)).mono
  intro result copied outcome
  rcases outcome with ⟨rfl, first, copy, writing⟩
  rw [if_neg (by decide)]
  apply Program.Always.bind
  apply (copyFileAttributes_only different writing).mono
  intro result last outcome
  rcases outcome with ⟨rfl, second, changed, same, written⟩
  rw [if_neg (by decide)]
  have isThere := (Files.lookup_eq_some.mp written.writes).2
  have touched := Touched.of_grown grown (first.trans second)
  refine ⟨rfl, touched, ?_, changed, isThere, same⟩
  by_contra directory
  rw [Bool.not_eq_false] at directory
  have stays := touched.directories there directory
  rw [SysState.isDirectory_of_regular isThere] at stays
  cases stays

/-- A file that is the same is left alone, and any other is copied. -/
theorem syncFile_touches {front name : Bytes}
    (short : (front ++ Path.SLASH :: name).length < MAX_PATH_LEN)
    (proper : Path.Proper name) (notSlashes : trimSlashes front ≠ []) (different : place ≠ there)
    (leads : Path.destination state.cwd (front ++ Path.SLASH :: name) = there)
    (reads : state.lookup source = some (place, .regular file)) :
    (SimpleRsync.syncFile source (front ++ Path.SLASH :: name) false).Always OwnerAnswers
      (fun call _ => call ≠ .outOfRounds) (fun result after => result = 0 ∧
        Touched (Above state.cwd (front ++ Path.SLASH :: name)) there state after ∧
        if SimpleRsync.comparison file (state.lookup (front ++ Path.SLASH :: name)) = true then
          after = state
        else CopiedFile file there state after) state := by
  apply Program.Always.call SysCall.noConfusion
  intro found after answered
  cases answered with
  | answers answered =>
  rcases answers_stat answered with ⟨rfl, rfl⟩
  rw [statOf_of_lookup reads]
  apply Program.Always.bind
  apply (owner_always (unowned_destinationIsIdentical _ _)
    (always_of_follows (destinationIsIdentical_alone reads))).mono
  intro result between outcome
  rcases outcome with ⟨rfl, rfl⟩
  split
  · exact ⟨rfl, Touched.refl _ _ _, rfl⟩
  · rw [if_neg Bool.false_ne_true]
    exact copyFile_touches short proper notSlashes different leads reads

end OneFile

/-! ## The two trees -/

/-- The source is a directory, and the destination is apart from it. What is missing on
the way to the destination is above it, and all paths fit. -/
structure Trees (start : SysState) (depth : Nat) (srcDir dstDir : Bytes) (source target : Place) :
    Prop where
  wellFormed : start.files.WellFormed
  leads : start.files.LeadsToDirectory start.cwd srcDir source
  nonempty : dstDir ≠ []
  destination : Path.destination start.cwd dstDir = target
  notAbove : ¬ source <+: target
  notBelow : ¬ target <+: source
  way : ∀ rung ∈ ladder dstDir, (∃ place, start.files.LeadsToDirectory start.cwd rung place) ∨
    start.files (Path.destination start.cwd rung) = none ∧
      Path.destination start.cwd rung <+: target
  fits : ∀ names, start.files (source ++ names) ≠ none → names.length < depth ∧
    (srcDir ++ Path.below names).length ≤ SimpleRsync.JOIN_LIMIT ∧
    (dstDir ++ Path.below names).length ≤ SimpleRsync.JOIN_LIMIT

/-- The file is found to be the same at its destination. -/
def LeftAlone (start : SysState) (target : Place) (names : List Bytes) (file : RegularFile) : Prop :=
  ∃ node, start.files (target ++ names) = some node ∧ SimpleRsync.identical file node = true

/-- Every regular file of the source has its attributes at its destination. -/
def AttributesKept (source target : Place) (state : SysState) : Prop :=
  ∀ names file, state.files (source ++ names) = some (.regular file) →
    ∃ copy, state.files (target ++ names) = some (.regular copy) ∧ SameAttributes file copy

section Trees

variable {start state after : SysState} {depth : Nat} {srcDir dstDir : Bytes} {source target : Place}
  {names : List Bytes} {file : RegularFile} {node : Node}

theorem Trees.apart (trees : Trees start depth srcDir dstDir source target) (names others : List Bytes) :
    source ++ names ≠ target ++ others := by
  intro same
  rcases List.prefix_or_prefix_of_prefix (List.prefix_append source names)
    (same ▸ List.prefix_append target others) with above | below
  · exact trees.notAbove above
  · exact trees.notBelow below

theorem Trees.directory_above (trees : Trees start depth srcDir dstDir source target)
    {more : List Bytes} (nonempty : more ≠ []) (there : start.files (source ++ (names ++ more)) ≠ none) :
    start.files.isDirectory (source ++ names) = true := by
  rw [← List.append_assoc] at there
  exact trees.wellFormed.isDirectory_above nonempty there

/-- The path for something in the source leads there. -/
theorem Trees.resolve_source (trees : Trees start depth srcDir dstDir source target)
    (there : start.files (source ++ names) = some node) :
    start.lookup (srcDir ++ Path.below names) = some (source ++ names, node) := by
  have some : start.files (source ++ names) ≠ none := by
    rw [there]
    exact Option.some_ne_none _
  exact Files.lookup_eq_some.mpr ⟨Files.resolve_below trees.wellFormed trees.leads.1 some, there⟩

theorem Trees.target_destination (trees : Trees start depth srcDir dstDir source target)
    (there : start.files (source ++ names) ≠ none) :
    Path.destination start.cwd (dstDir ++ Path.below names) = target ++ names := by
  rw [Path.destination_below trees.nonempty (trees.wellFormed.names_proper there), trees.destination]

/-- What was at a destination at the start is found by its path. -/
theorem Trees.resolve_target (trees : Trees start depth srcDir dstDir source target)
    (nonempty : names ≠ []) (there : start.files (target ++ names) = some node) :
    start.lookup (dstDir ++ Path.below names) = some (target ++ names, node) := by
  have some : start.files (target ++ names) ≠ none := by
    rw [there]
    exact Option.some_ne_none _
  have directory := trees.wellFormed.isDirectory_above nonempty some
  have leads : start.files.resolve start.cwd dstDir = Option.some target := by
    rcases trees.way dstDir (List.mem_append_right _ (List.mem_singleton.mpr rfl)) with
      ⟨place, leads⟩ | ⟨missing, _⟩
    · have isDestination := Files.resolve_eq leads.1
      rw [trees.destination] at isDestination
      rw [leads.1, isDestination]
    · rw [trees.destination] at missing
      rw [Files.isDirectory, missing] at directory
      cases directory
  exact Files.lookup_eq_some.mpr ⟨Files.resolve_below trees.wellFormed leads some, there⟩

/-- The source is no file, so that a file in it has a name. -/
theorem Trees.last_name (trees : Trees start depth srcDir dstDir source target)
    (isFile : start.files (source ++ names) = some (.regular file)) :
    ∃ front name, names = front ++ [name] := by
  rcases List.eq_nil_or_concat names with rfl | ⟨front, name, isConcat⟩
  · have directory := trees.leads.2
    rw [List.append_nil] at isFile
    rw [Files.isDirectory, isFile] at directory
    cases directory
  · exact ⟨front, name, by rw [isConcat, List.concat_eq_append]⟩

theorem Trees.notSlashes (trees : Trees start depth srcDir dstDir source target) {front : List Bytes}
    (proper : ∀ name ∈ front, Path.Proper name) : trimSlashes (dstDir ++ Path.below front) ≠ [] := by
  rcases List.eq_nil_or_concat front with rfl | ⟨init, name, isConcat⟩
  · intro slashes
    rw [Path.below_nil, List.append_nil] at slashes
    have resolved : start.files.resolve start.cwd dstDir = some [] :=
      resolve_slashes trees.wellFormed.root trees.nonempty slashes
    have isRoot := Files.resolve_eq resolved
    rw [trees.destination] at isRoot
    exact trees.notBelow (isRoot ▸ List.nil_prefix)
  · rw [List.concat_eq_append] at isConcat
    subst isConcat
    have properName := proper name (by simp)
    rw [Path.below_concat, ← List.append_assoc,
      trimSlashes_join properName.nonempty properName.noSlash]
    simp

end Trees

/-! ### The directories that are made -/

/-- Where directories may be made. -/
def Way (start : SysState) (dstDir : Bytes) (source target place : Place) : Prop :=
  (∃ rung ∈ ladder dstDir, place = Path.destination start.cwd rung) ∨
    ∃ names, place = target ++ names ∧ start.files.isDirectory (source ++ names) = true

section Ways

variable {start state after : SysState} {depth : Nat} {srcDir dstDir : Bytes}
  {source target place : Place} {names front : List Bytes} {name : Bytes} {file : RegularFile}
  {node : Node}

/-- What is above a destination is on the way. -/
theorem Trees.way_of_above (trees : Trees start depth srcDir dstDir source target)
    (there : start.files (source ++ (front ++ [name])) ≠ none)
    (above : Above start.cwd (dstDir ++ Path.below front ++ Path.SLASH :: name) place)
    (absent : start.files place = none) : Way start dstDir source target place := by
  have proper := trees.wellFormed.names_proper there
  rcases above with rfl | ⟨rung, member, rfl⟩
  · have root := trees.wellFormed.root
    rw [Files.isDirectory, absent] at root
    cases root
  · rw [slashPrefixes_join (proper name (by simp)).noSlash,
      if_neg (List.append_ne_nil_of_left_ne_nil trees.nonempty _)] at member
    rcases mem_ladder_below trees.nonempty
      (fun other among => (proper other (List.mem_append_left _ among)).noSlash) member with
      inFront | ⟨higher, isHigher, rfl⟩
    · exact Or.inl ⟨rung, inFront, rfl⟩
    · rcases isHigher with ⟨more, rfl⟩
      rw [List.append_assoc] at there
      have directory := trees.directory_above (by simp) there
      refine Or.inr ⟨higher, trees.target_destination ?_, directory⟩
      rcases Files.isDirectory_iff.mp directory with ⟨size, mtime, found⟩
      rw [found]
      exact Option.some_ne_none _

/-- What is missing and on the way is above the destination, or a directory of it. -/
theorem Trees.missing_way (trees : Trees start depth srcDir dstDir source target)
    (way : Way start dstDir source target place) (absent : start.files place = none) :
    place <+: target ∨
      ∃ names, place = target ++ names ∧ start.files.isDirectory (source ++ names) = true := by
  rcases way with ⟨rung, member, rfl⟩ | below
  · rcases trees.way rung member with ⟨other, leads⟩ | ⟨_, isAbove⟩
    · have directory := leads.2
      rw [Files.resolve_eq leads.1, Files.isDirectory, absent] at directory
      cases directory
    · exact Or.inl isAbove
  · exact Or.inr below

theorem Trees.source_notWay (trees : Trees start depth srcDir dstDir source target)
    (absent : start.files (source ++ names) = none) :
    ¬ Way start dstDir source target (source ++ names) := by
  intro way
  rcases trees.missing_way way absent with isAbove | ⟨others, same, _⟩
  · exact trees.notAbove ((List.prefix_append source names).trans isAbove)
  · exact trees.apart names others same

theorem Trees.file_notWay (trees : Trees start depth srcDir dstDir source target)
    (isFile : start.files (source ++ names) = some (.regular file))
    (absent : start.files (target ++ names) = none) :
    ¬ Way start dstDir source target (target ++ names) := by
  intro way
  have noDirectory : ∀ others, target ++ names = target ++ others →
      ¬ start.files.isDirectory (source ++ others) = true := by
    intro others same directory
    cases List.append_cancel_left same
    rw [Files.isDirectory, isFile] at directory
    cases directory
  rcases trees.missing_way way absent with isAbove | ⟨others, same, directory⟩
  · rcases isAbove with ⟨more, same⟩
    have isNil : names = [] := by
      have lengths := congrArg List.length same
      simp only [List.length_append] at lengths
      exact List.length_eq_zero_iff.mp (by omega)
    subst isNil
    apply noDirectory [] rfl
    rw [List.append_nil]
    exact trees.leads.2
  · exact noDirectory others same directory

/-! ### What a run has done -/

/-- The file was left alone because it was the same, or it was copied. -/
def FileSettled (start : SysState) (target : Place) (names : List Bytes) (file : RegularFile)
    (state : SysState) : Prop :=
  LeftAlone start target names file ∧
      state.files (target ++ names) = start.files (target ++ names) ∨
    ¬ LeftAlone start target names file ∧ ∃ copy,
      state.files (target ++ names) = some (.regular copy) ∧ SameAttributes file copy

/-- Some files of the source are settled, and nothing changed but what has to. -/
structure Mirror (start : SysState) (dstDir : Bytes) (source target : Place)
    (done : List Bytes → Prop) (state : SysState) : Prop where
  sameCwd : state.cwd = start.cwd
  directories : ∀ place, start.files.isDirectory place = true →
    state.files.isDirectory place = true
  others : ∀ place, (∀ names file, start.files (source ++ names) = some (.regular file) →
    place ≠ target ++ names) → state.files place = start.files place ∨
      start.files place = none ∧ Way start dstDir source target place
  files : ∀ names file, start.files (source ++ names) = some (.regular file) →
    FileSettled start target names file state ∨
      ¬ done names ∧ state.files (target ++ names) = start.files (target ++ names)

variable {done more : List Bytes → Prop}

theorem Mirror.refl (start : SysState) (dstDir : Bytes) (source target : Place) :
    Mirror start dstDir source target (fun _ => False) start :=
  ⟨rfl, fun _ directory => directory, fun _ _ => Or.inl rfl, fun _ _ _ => Or.inr ⟨id, rfl⟩⟩

theorem Mirror.mono (mirror : Mirror start dstDir source target done state)
    (implies : ∀ names file, start.files (source ++ names) = some (.regular file) → more names →
      done names) : Mirror start dstDir source target more state where
  sameCwd := mirror.sameCwd
  directories := mirror.directories
  others := mirror.others
  files := fun names file isFile =>
    (mirror.files names file isFile).imp_right fun untouched =>
      ⟨fun isMore => untouched.1 (implies names file isFile isMore), untouched.2⟩

/-- The source stays what it was. -/
theorem Mirror.source_same (mirror : Mirror start dstDir source target done state)
    (trees : Trees start depth srcDir dstDir source target) (names : List Bytes) :
    state.files (source ++ names) = start.files (source ++ names) := by
  rcases mirror.others _ fun others _ _ => trees.apart names others with same | ⟨absent, way⟩
  · exact same
  · exact absurd way (trees.source_notWay absent)

theorem Mirror.lookup_source (mirror : Mirror start dstDir source target done state)
    (trees : Trees start depth srcDir dstDir source target)
    (there : start.files (source ++ names) = some node) :
    state.lookup (srcDir ++ Path.below names) = some (source ++ names, node) := by
  rcases Files.lookup_eq_some.mp (trees.resolve_source there) with ⟨resolved, _⟩
  apply Files.lookup_eq_some.mpr
  rw [mirror.sameCwd]
  exact ⟨Files.resolve_mono mirror.directories resolved, (mirror.source_same trees names).trans there⟩

/-- A destination that is what it was at the start is found as it was then. -/
theorem Mirror.comparison_target (mirror : Mirror start dstDir source target done state)
    (trees : Trees start depth srcDir dstDir source target)
    (isFile : start.files (source ++ names) = some (.regular file))
    (untouched : state.files (target ++ names) = start.files (target ++ names)) :
    SimpleRsync.comparison file (state.lookup (dstDir ++ Path.below names)) = true ↔
      LeftAlone start target names file := by
  rcases trees.last_name isFile with ⟨front, name, rfl⟩
  cases there : start.files (target ++ (front ++ [name])) with
  | none =>
      have missing : state.lookup (dstDir ++ Path.below (front ++ [name])) = none := by
        rw [Option.eq_none_iff_forall_ne_some]
        intro found isFound
        rcases found with ⟨place, node⟩
        rcases Files.lookup_eq_some.mp isFound with ⟨resolved, isThere⟩
        have isTarget := Files.resolve_eq resolved
        rw [mirror.sameCwd, trees.target_destination (by rw [isFile]; exact Option.some_ne_none _)]
          at isTarget
        rw [isTarget, untouched, there] at isThere
        cases isThere
      rw [missing]
      constructor
      · exact nofun
      · rintro ⟨node, isNode, _⟩
        rw [there] at isNode
        cases isNode
  | some node =>
      rcases Files.lookup_eq_some.mp (trees.resolve_target (by simp) there) with ⟨resolved, _⟩
      have found : state.lookup (dstDir ++ Path.below (front ++ [name])) =
          some (target ++ (front ++ [name]), node) := by
        apply Files.lookup_eq_some.mpr
        rw [mirror.sameCwd]
        exact ⟨Files.resolve_mono mirror.directories resolved, untouched.trans there⟩
      rw [found]
      constructor
      · exact fun identical => ⟨node, there, identical⟩
      · rintro ⟨other, isOther, identical⟩
        rw [there] at isOther
        cases isOther
        exact identical

/-- What `sync_file` does settles its file. -/
theorem Mirror.settle (mirror : Mirror start dstDir source target done state)
    (trees : Trees start depth srcDir dstDir source target)
    (isFile : start.files (source ++ names) = some (.regular file))
    (outcome : if SimpleRsync.comparison file (state.lookup (dstDir ++ Path.below names)) = true then
        after = state
      else CopiedFile file (target ++ names) state after) :
    FileSettled start target names file after := by
  have unchanged : state.files (target ++ names) = start.files (target ++ names) →
      FileSettled start target names file after := by
    intro untouched
    split at outcome
    · rename_i identical
      subst outcome
      exact Or.inl ⟨(mirror.comparison_target trees isFile untouched).mp identical, untouched⟩
    · rename_i differs
      exact Or.inr ⟨fun left => differs ((mirror.comparison_target trees isFile untouched).mpr left),
        outcome.copied⟩
  rcases mirror.files names file isFile with (⟨_, untouched⟩ | copied) | ⟨_, untouched⟩
  · exact unchanged untouched
  · split at outcome
    · subst outcome
      exact Or.inr copied
    · exact Or.inr ⟨copied.1, outcome.copied⟩
  · exact unchanged untouched

/-- The other destinations keep what they have. -/
theorem Mirror.step (mirror : Mirror start dstDir source target done state)
    (trees : Trees start depth srcDir dstDir source target)
    (isFile : start.files (source ++ (front ++ [name])) = some (.regular file))
    (touched : Touched (Above start.cwd (dstDir ++ Path.below front ++ Path.SLASH :: name))
      (target ++ (front ++ [name])) state after)
    (settled : FileSettled start target (front ++ [name]) file after) :
    Mirror start dstDir source target (fun other => done other ∨ other = front ++ [name]) after where
  sameCwd := touched.sameCwd.trans mirror.sameCwd
  directories := fun place directory => touched.directories place (mirror.directories place directory)
  others := by
    intro place noFile
    have there : start.files (source ++ (front ++ [name])) ≠ none := by
      rw [isFile]
      exact Option.some_ne_none _
    rcases touched.others place (noFile _ _ isFile) with same | ⟨absent, above, _⟩
    · rw [same]
      exact mirror.others place noFile
    · rcases mirror.others place noFile with same | new
      · rw [same] at absent
        exact Or.inr ⟨absent, trees.way_of_above there above absent⟩
      · exact Or.inr new
  files := by
    intro names other isOther
    rcases eq_or_ne names (front ++ [name]) with rfl | different
    · rw [isFile] at isOther
      cases isOther
      exact Or.inl settled
    have there : start.files (source ++ (front ++ [name])) ≠ none := by
      rw [isFile]
      exact Option.some_ne_none _
    have notHere : target ++ names ≠ target ++ (front ++ [name]) :=
      fun same => different (List.append_cancel_left same)
    have same : after.files (target ++ names) = state.files (target ++ names) := by
      rcases touched.others _ notHere with same | ⟨absent, above, _⟩
      · exact same
      have untouched : state.files (target ++ names) = start.files (target ++ names) := by
        rcases mirror.files names other isOther with (⟨_, untouched⟩ | ⟨_, copy, isCopy, _⟩) |
          ⟨_, untouched⟩
        · exact untouched
        · rw [isCopy] at absent
          cases absent
        · exact untouched
      rw [untouched] at absent
      exact absurd (trees.way_of_above there above absent) (trees.file_notWay isOther absent)
    rw [FileSettled, same]
    rcases mirror.files names other isOther with settledOther | ⟨notDone, untouched⟩
    · exact Or.inl settledOther
    · exact Or.inr ⟨fun isDone => isDone.elim notDone different, untouched⟩

/-! ## A whole run -/

/-- No loop and no recursion comes to its bound. -/
abbrev WithinBounds (call : SysCall) (_ : SysState) : Prop :=
  call ≠ .outOfRounds ∧ call ≠ .tooDeep

/-- A run of a part of the program succeeds and settles some files more. -/
abbrev Settles (start : SysState) (dstDir : Bytes) (source target : Place) (done : List Bytes → Prop)
    (program : Sys Int) (state : SysState) : Prop :=
  program.Always OwnerAnswers WithinBounds
    (fun result after => result = 0 ∧ Mirror start dstDir source target done after) state

theorem settles_syncFile (trees : Trees start depth srcDir dstDir source target)
    (mirror : Mirror start dstDir source target done state)
    (isFile : start.files (source ++ names) = some (.regular file)) :
    Settles start dstDir source target (fun other => done other ∨ other = names)
      (SimpleRsync.syncFile (srcDir ++ Path.below names) (dstDir ++ Path.below names) false) state := by
  have there : start.files (source ++ names) ≠ none := by
    rw [isFile]
    exact Option.some_ne_none _
  have reads := mirror.lookup_source trees isFile
  have proper := trees.wellFormed.names_proper there
  have isTarget := trees.target_destination there
  have fits := (trees.fits names there).2.2
  rcases trees.last_name isFile with ⟨front, name, rfl⟩
  have path : dstDir ++ Path.below (front ++ [name]) =
      dstDir ++ Path.below front ++ Path.SLASH :: name := by
    rw [Path.below_concat, List.append_assoc]
  have short : (dstDir ++ Path.below front ++ Path.SLASH :: name).length < MAX_PATH_LEN := by
    rw [← path]
    exact Nat.lt_of_le_of_lt fits (by decide)
  have touches := syncFile_touches short (proper name (by simp))
    (trees.notSlashes fun other among => proper other (List.mem_append_left _ among))
    (trees.apart _ _) (by rw [mirror.sameCwd, ← path]; exact isTarget) reads
  have plain : (SimpleRsync.syncFile (srcDir ++ Path.below (front ++ [name]))
      (dstDir ++ Path.below front ++ Path.SLASH :: name) false).Always OwnerAnswers
      (fun call _ => call.Plain) (fun result _ => result = 0 ∨ result = -1) state :=
    (SimpleRsync.plain_syncFile _ _ false).anywhere state
  rw [path]
  apply ((touches.and plain).mono_allowed _).mono
  · intro result after outcome
    rcases outcome with ⟨⟨isZero, touched, change⟩, _⟩
    rw [mirror.sameCwd] at touched
    rw [← path] at change
    exact ⟨isZero, mirror.step trees isFile touched (mirror.settle trees isFile change)⟩
  · intro call between both
    refine ⟨both.1, ?_⟩
    rintro rfl
    exact both.2

theorem settles_syncEntries {visit : Bytes → Sys Int} {entries : List Bytes}
    (each : ∀ name ∈ entries, ∀ done between, Mirror start dstDir source target done between →
      Settles start dstDir source target (fun other => done other ∨ names ++ [name] <+: other)
        (visit name) between)
    (mirror : Mirror start dstDir source target done state) :
    Settles start dstDir source target
      (fun other => done other ∨ ∃ name ∈ entries, names ++ [name] <+: other)
      (syncEntries visit entries) state := by
  induction entries generalizing done state with
  | nil =>
      refine ⟨rfl, mirror.mono fun other file _ isDone => isDone.elim id ?_⟩
      rintro ⟨name, member, _⟩
      cases member
  | cons name entries hypothesis =>
      apply Program.Always.bind
      apply (each name List.mem_cons_self done state mirror).mono
      intro result between outcome
      rcases outcome with ⟨rfl, visited⟩
      rw [if_neg (by decide)]
      apply (hypothesis (fun other member => each other (List.mem_cons_of_mem _ member)) visited).mono
      intro result after outcome
      refine ⟨outcome.1, outcome.2.mono fun other file _ isDone => ?_⟩
      rcases isDone with before | ⟨visitedName, member, isPrefix⟩
      · exact Or.inl (Or.inl before)
      · rcases List.mem_cons.mp member with rfl | behind
        · exact Or.inl (Or.inr isPrefix)
        · exact Or.inr ⟨visitedName, behind, isPrefix⟩

/-- One entry: a file is settled, and of a directory everything that is in it. -/
theorem settles_visitEntry (trees : Trees start depth srcDir dstDir source target)
    {recurse : Bytes → Bytes → Sys Int}
    (inner : start.files.isDirectory (source ++ (names ++ [name])) = true → ∀ between,
      Mirror start dstDir source target done between →
      Settles start dstDir source target (fun other => done other ∨ names ++ [name] <+: other)
        (recurse (srcDir ++ Path.below (names ++ [name])) (dstDir ++ Path.below (names ++ [name])))
        between)
    (entry : name = Path.DOT ∨ name = Path.DOTDOT ∨ start.files (source ++ (names ++ [name])) ≠ none)
    (mirror : Mirror start dstDir source target done state) :
    Settles start dstDir source target (fun other => done other ∨ names ++ [name] <+: other)
      (visitEntry false recurse (srcDir ++ Path.below names) (dstDir ++ Path.below names) name)
      state := by
  rw [visitEntry]
  split
  · rename_i dots
    refine ⟨rfl, mirror.mono fun other file isFile isDone => isDone.elim id fun isPrefix => ?_⟩
    rcases isPrefix with ⟨rest, rfl⟩
    have there : start.files (source ++ (names ++ [name] ++ rest)) ≠ none := by
      rw [isFile]
      exact Option.some_ne_none _
    have proper := trees.wellFormed.names_proper there name (by simp)
    rcases dots with isDot | isDotDot
    · exact absurd isDot proper.noDot
    · exact absurd isDotDot proper.noDotDot
  rename_i noDots
  rw [not_or] at noDots
  have there := (entry.resolve_left noDots.1).resolve_left noDots.2
  have fits := trees.fits (names ++ [name]) there
  rw [Path.below_concat, ← List.append_assoc, ← List.append_assoc] at fits
  have srcPath : joinPath SimpleRsync.JOIN_LIMIT (srcDir ++ Path.below names) name =
      srcDir ++ Path.below (names ++ [name]) := by
    rw [Path.below_concat, ← List.append_assoc]
    exact List.take_of_length_le fits.2.1
  have dstPath : joinPath SimpleRsync.JOIN_LIMIT (dstDir ++ Path.below names) name =
      dstDir ++ Path.below (names ++ [name]) := by
    rw [Path.below_concat, ← List.append_assoc]
    exact List.take_of_length_le fits.2.2
  rw [srcPath, dstPath]
  rcases Option.ne_none_iff_exists'.mp there with ⟨node, found⟩
  apply Program.Always.call ⟨SysCall.noConfusion, SysCall.noConfusion⟩
  intro stat between answered
  cases answered with
  | answers answered =>
  rcases answers_stat answered with ⟨rfl, rfl⟩
  rw [statOf_of_lookup (mirror.lookup_source trees found)]
  cases node with
  | directory size mtime =>
      apply Program.Always.call ⟨SysCall.noConfusion, SysCall.noConfusion⟩
      intro _ between answered
      cases answered with
      | answers answered =>
      cases answered
      exact inner (Files.isDirectory_iff.mpr ⟨size, mtime, found⟩) _ mirror
  | regular file =>
      apply Program.Always.call ⟨SysCall.noConfusion, SysCall.noConfusion⟩
      intro _ between answered
      cases answered with
      | answers answered =>
      cases answered
      apply (settles_syncFile trees mirror found).mono
      intro result after outcome
      refine ⟨outcome.1, outcome.2.mono fun other copy isFile isDone => isDone.imp_right ?_⟩
      intro isPrefix
      rcases isPrefix with ⟨rest, rfl⟩
      rcases eq_or_ne rest [] with rfl | more
      · rw [List.append_nil]
      · have directory := trees.directory_above more (by rw [isFile]; exact Option.some_ne_none _)
        rw [Files.isDirectory, found] at directory
        cases directory

theorem settles_syncDirectory (trees : Trees start depth srcDir dstDir source target)
    (directory : start.files.isDirectory (source ++ names) = true) {rounds : Nat}
    (enough : depth ≤ names.length + rounds)
    (mirror : Mirror start dstDir source target done state) :
    Settles start dstDir source target (fun other => done other ∨ names <+: other)
      (SimpleRsync.syncDirectory false rounds (srcDir ++ Path.below names)
        (dstDir ++ Path.below names)) state := by
  rcases Files.isDirectory_iff.mp directory with ⟨size, mtime, there⟩
  have deep := (trees.fits names (by rw [there]; exact Option.some_ne_none _)).1
  induction rounds generalizing names done state size mtime with
  | zero => omega
  | succ rounds hypothesis =>
      rw [syncDirectory_succ]
      apply Program.Always.call ⟨SysCall.noConfusion, SysCall.noConfusion⟩
      intro listed between answered
      have found := mirror.lookup_source trees there
      cases answered with
      | answers answered =>
      cases answered with
      | noDirectory missing => exact absurd found (missing _ _ _)
      | readDirectory isThere lists =>
      rename_i place _ _ entries
      rw [found] at isThere
      cases isThere
      have same : ∀ name, state.files (source ++ names ++ [name]) =
          start.files (source ++ (names ++ [name])) := by
        intro name
        rw [List.append_assoc]
        exact mirror.source_same trees _
      apply Program.Always.mono
      · apply settles_syncEntries _ mirror
        · exact names
        intro name member done between mirror
        apply settles_visitEntry trees _ _ mirror
        · intro isDirectory last mirror
          rcases Files.isDirectory_iff.mp isDirectory with ⟨size, mtime, isThere⟩
          have deeper := (trees.fits _ (by rw [isThere]; exact Option.some_ne_none _)).1
          apply hypothesis isDirectory _ mirror size mtime isThere deeper
          rw [List.length_append, List.length_singleton]
          omega
        · rw [← same]
          exact (lists.mem_iff name).mp member
      · intro result after outcome
        refine ⟨outcome.1, outcome.2.mono fun other file isFile isDone => isDone.imp_right ?_⟩
        intro isPrefix
        rcases isPrefix with ⟨rest, rfl⟩
        cases rest with
        | nil =>
            rw [List.append_nil, there] at isFile
            cases isFile
        | cons name rest =>
            refine ⟨name, (lists.mem_iff name).mpr (Or.inr (Or.inr ?_)), rest, by simp⟩
            rw [same]
            have isThere : start.files (source ++ (names ++ [name] ++ rest)) ≠ none := by
              rw [List.append_assoc, List.singleton_append, isFile]
              exact Option.some_ne_none _
            rcases eq_or_ne rest [] with rfl | more
            · rw [List.append_nil] at isThere
              exact isThere
            · rcases Files.isDirectory_iff.mp (trees.directory_above more isThere) with
                ⟨_, _, isDirectory⟩
              rw [isDirectory]
              exact Option.some_ne_none _

/-- What is found to be the same has the permission bits and the time already. -/
def SameHaveAttributes (source target : Place) (state : SysState) : Prop :=
  ∀ names file node, state.files (source ++ names) = some (.regular file) →
    state.files (target ++ names) = some node → SimpleRsync.identical file node = true →
    ∃ copy, node = .regular copy ∧ SameAttributes file copy

/-- Where every file is settled, those that were left alone decide. -/
theorem Mirror.attributesKept_iff (mirror : Mirror start dstDir source target (fun _ => True) state)
    (trees : Trees start depth srcDir dstDir source target) :
    AttributesKept source target state ↔ SameHaveAttributes source target start := by
  constructor
  · intro kept names file node isFile isThere identical
    rcases kept names file ((mirror.source_same trees names).trans isFile) with ⟨copy, isCopy, same⟩
    rcases mirror.files names file isFile with (⟨_, untouched⟩ | ⟨notLeft, _⟩) | ⟨notDone, _⟩
    · rw [untouched, isThere] at isCopy
      cases isCopy
      exact ⟨copy, rfl, same⟩
    · exact absurd ⟨node, isThere, identical⟩ notLeft
    · exact absurd trivial notDone
  · intro ready names file isFile
    rw [mirror.source_same trees names] at isFile
    rcases mirror.files names file isFile with (⟨⟨node, isThere, identical⟩, untouched⟩ | ⟨_, copied⟩) |
      ⟨notDone, _⟩
    · rcases ready names file node isFile isThere identical with ⟨copy, rfl, same⟩
      exact ⟨copy, untouched.trans isThere, same⟩
    · exact copied
    · exact absurd trivial notDone

/-- Every run comes to its end and returns 0, and the attributes are right behind it
exactly if they were right for the files that were the same at the start. -/
theorem syncDirectory_attributes_iff (trees : Trees start depth srcDir dstDir source target) :
    (SimpleRsync.syncDirectory false depth srcDir dstDir).Always OwnerAnswers WithinBounds
      (fun result after => result = 0 ∧
        (AttributesKept source target after ↔ SameHaveAttributes source target start)) start := by
  have directory : start.files.isDirectory (source ++ []) = true := by
    rw [List.append_nil]
    exact trees.leads.2
  have settles := settles_syncDirectory trees directory (Nat.le_add_left depth 0)
    (Mirror.refl start dstDir source target)
  rw [Path.below_nil, List.append_nil, List.append_nil] at settles
  apply settles.mono
  intro result after outcome
  have mirror : Mirror start dstDir source target (fun _ => True) after :=
    outcome.2.mono fun names _ _ _ => Or.inr List.nil_prefix
  exact ⟨outcome.1, mirror.attributesKept_iff trees⟩

end Ways

/-! ### A file that is readable at its destination only -/

/-- The file `a` in the directories `s` and `t`, with other permission bits. -/
def sameBytes : SysState where
  files := fun place =>
    if place = [[115], [97]] then some (.regular ⟨[120], 5, 384⟩)
    else if place = [[116], [97]] then some (.regular ⟨[120], 5, 420⟩)
    else if place = [] ∨ place = [[115]] ∨ place = [[116]] then some (.directory 0 0)
    else none
  cwd := []
  opened := []
  reported := []
  outcomes := []

theorem sameBytes_there {place : Place} (there : sameBytes.files place ≠ none) :
    place ∈ ([[], [[115]], [[116]], [[115], [97]], [[116], [97]]] : List Place) := by
  by_contra other
  simp only [List.mem_cons, List.not_mem_nil, or_false, not_or] at other
  simp [sameBytes, other] at there

theorem sameBytes_trees : Trees sameBytes 2 [47, 115] [47, 116] [[115]] [[116]] where
  wellFormed := Files.wellFormed_of_places (fun _ there => sameBytes_there there) rfl (by decide)
    (by decide)
  leads := ⟨by decide, by decide⟩
  nonempty := by decide
  destination := by decide
  notAbove := by decide
  notBelow := by decide
  way := by
    intro rung member
    have isRung : ladder [47, 116] = [[47, 116]] := by decide
    rw [isRung, List.mem_singleton] at member
    rw [member]
    exact Or.inl ⟨[[116]], by decide, by decide⟩
  fits := by
    intro names there
    have among := sameBytes_there there
    have cases : names = [] ∨ names = [[97]] := by
      simpa using among
    rcases cases with rfl | rfl
    · decide
    · decide

/-- The file is left alone, so that its permission bits stay different. -/
theorem syncDirectory_attributes_iff_same :
    (SimpleRsync.syncDirectory false 2 [47, 115] [47, 116]).Always OwnerAnswers WithinBounds
      (fun result after => result = 0 ∧ (AttributesKept [[115]] [[116]] after ↔
        SameHaveAttributes [[115]] [[116]] sameBytes)) sameBytes :=
  syncDirectory_attributes_iff sameBytes_trees

theorem sameBytes_listed : OwnerAnswers (.readDirectory [47, 115]) sameBytes
    (some [[97], Path.DOT, Path.DOTDOT] : Option (List Bytes)) sameBytes := by
  apply OwnerAnswers.answers
  apply @Answers.readDirectory _ _ [[115]] 0 0 _ (Files.lookup_eq_some.mpr ⟨by decide, rfl⟩)
  constructor
  · decide
  · intro name
    by_cases isFile : name = [97]
    · subst isFile
      decide
    · have absent : sameBytes.files ([[115]] ++ [name]) = none := by
        simp [sameBytes, isFile]
      rw [absent]
      simp [isFile]

theorem attributes_not_kept : ∃ after,
    (SimpleRsync.syncDirectory false 2 [47, 115] [47, 116]).Runs OwnerAnswers sameBytes 0 after ∧
      ¬ AttributesKept [[115]] [[116]] after := by
  have source : ∀ path, OwnerAnswers (.stat path) sameBytes (sameBytes.statOf path) sameBytes :=
    fun path => .answers (.stat path sameBytes)
  refine ⟨sameBytes, ?_, fun kept => ?_⟩
  · exact .call sameBytes_listed (.call (source [47, 115, 47, 97])
      (.call (.answers (.handing _ _ _ _ _)) (.call (source [47, 115, 47, 97])
        (.call (source [47, 116, 47, 97]) (.call (source [47, 115, 47, 97])
          (.call (source [47, 116, 47, 97]) (.done _ _)))))))
  · rcases kept [[97]] ⟨[120], 5, 384⟩ rfl with ⟨copy, isCopy, same⟩
    cases isCopy
    exact absurd same.1 (by decide)

end Apue.Sync.SimpleRsync
