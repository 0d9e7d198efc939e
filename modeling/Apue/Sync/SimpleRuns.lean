import Apue.Sync.SimpleVisits

/-! # Whole runs of the simple synchroniser

A run of `sync_directory` leaves every file of the source at its destination, and a dry
run names the files that a run would open for writing.
-/

namespace Apue.Sync.SimpleRsync

open Apue.Foundation

theorem comparison_copy {file copy : RegularFile}
    (copied : copy.data = file.data ∧ copy.mtime = file.mtime) (place : Place) :
    SimpleRsync.comparison file (some (place, .regular copy)) = true := by
  apply decide_eq_true
  refine ⟨?_, Or.inl copied.2.symm⟩
  change ((_ : Nat) : Int) = ((_ : Nat) : Int)
  rw [copied.1]

/-- The simple synchroniser copies the bytes and the time of a file. -/
def simple : Synchroniser where
  comparison := SimpleRsync.comparison
  copies := fun file copy => copy.data = file.data ∧ copy.mtime = file.mtime
  missing := fun _ => rfl
  same := comparison_copy

/-! ## One file -/

section OneFile

variable {state : SysState} {task : Task} {front name : Bytes} {Value : Type}
  {post : Value → SysState → Prop} {program : Sys Value}

/-- A program that runs alone and changes nothing but the target of a file. -/
abbrev changingTarget (task : Task) : Conduct SysCall SysState :=
  ⟨Eq, Changes (fun _ => True) (· = task), fun _ => True⟩

theorem throughout_of_changing (follows : (changingTarget task).Follows Answers post program state) :
    Throughout True (fun result after => post result after ∧
      Changes (fun _ => True) (· = task) state after) program state :=
  (Conduct.Follows.guaranteed (Changes.refl _ _) (fun _ _ _ => Changes.trans) follows).always
    fun _ => rfl

theorem works_changingTarget (different : task.place ≠ task.target) :
    Works (changingTarget task) task.sourcePath task.targetPath task.place task.target task.file :=
  Works.alone different (Changes.refl _ _)
    (fun _ _ changed found => (Touches.change trivial
      (SysState.isDirectory_of_regular (Files.lookup_eq_some.mp found).2) changed).changes rfl)
    fun _ copy _ notDirectory => (Touches.opening trivial notDirectory copy).changes rfl

/-- The directories above a file are made, and then its path leads to its place. -/
theorem parents_throughout (root : state.files.isDirectory [] = true)
    (directory : state.files.isDirectory state.cwd = true)
    (short : (front ++ Path.SLASH :: name).length < MAX_PATH_LEN)
    (proper : Path.Proper name) (notSlashes : trimSlashes front ≠ [])
    (way : ∀ rung ∈ slashPrefixes (front ++ Path.SLASH :: name), ¬ NamesFile state rung) :
    Throughout True (fun result after => result = 0 ∧
        Grown (Above state.cwd (front ++ Path.SLASH :: name)) state after ∧
        after.files.resolve after.cwd (front ++ Path.SLASH :: name) =
          some (Path.destination state.cwd (front ++ Path.SLASH :: name)))
      (createDirectoryRecursive (dirname (front ++ Path.SLASH :: name))) state := by
  have inFront : ∀ rung ∈ ladder (trimSlashes front), rung ∈ slashPrefixes (front ++ Path.SLASH :: name) :=
    fun rung member => ladder_trimSlashes notSlashes member
  have shortFront : (trimSlashes front).length < MAX_PATH_LEN := by
    have lengths := (trimSlashes_isPrefix front).length_le
    rw [List.length_append] at short
    omega
  have made := createDirectoryRecursive_ladder root directory notSlashes shortFront
    (trimSlashes_trimSlashes front) fun rung member => way rung (inFront rung member)
  rw [dirname_join proper.nonempty proper.noSlash, if_neg notSlashes]
  apply (made.mono_allowed fun _ _ answered _ => answered).mono
  rintro _ after ⟨rfl, grown, place, leadsTrimmed⟩
  refine ⟨rfl, grown.mono fun place isRung => ?_, ?_⟩
  · rcases isRung with ⟨rung, member, rfl⟩
    exact Or.inr ⟨rung, inFront rung member, rfl⟩
  · have leadsFront : after.files.LeadsToDirectory after.cwd front place := by
      apply leads_of_mkdirPath
      rw [mkdirPath, if_neg notSlashes]
      exact leadsTrimmed
    have resolved := Files.resolve_name leadsFront.1 leadsFront.2 proper.noSlash
    have same := Files.resolve_eq resolved
    rw [grown.sameCwd] at same
    rw [resolved, same]

/-- Behind a copy the directories above are there, and nothing else has changed but the
target, which is as the file is. -/
def CopiesTask (task : Task) (state after : SysState) : Prop :=
  ∃ between, Grown (Above state.cwd task.targetPath) state between ∧
    Changes (fun _ => True) (· = task) between after ∧
      Writing task.sourcePath task.targetPath task.place task.target task.file task.file after

/-- A file can be copied: its directories can be made and it is no directory itself. -/
structure Copyable (state : SysState) (task : Task) (front name : Bytes) : Prop where
  path : task.targetPath = front ++ Path.SLASH :: name
  short : task.targetPath.length < MAX_PATH_LEN
  proper : Path.Proper name
  notSlashes : trimSlashes front ≠ []
  different : task.place ≠ task.target
  leads : Path.destination state.cwd task.targetPath = task.target
  root : state.files.isDirectory [] = true
  cwd : state.files.isDirectory state.cwd = true
  way : ∀ rung ∈ slashPrefixes task.targetPath, ¬ NamesFile state rung
  notDirectory : state.files.isDirectory task.target = false
  notAbove : state.files task.target = none → ¬ Above state.cwd task.targetPath task.target

theorem copyFile_throughout (possible : Copyable state task front name)
    (reads : state.lookup task.sourcePath = some (task.place, .regular task.file)) :
    Throughout True (fun result after => result = 0 ∧ CopiesTask task state after)
      (SimpleRsync.copyFile task.sourcePath task.targetPath) state := by
  have made := parents_throughout possible.root possible.cwd (possible.path ▸ possible.short)
    possible.proper possible.notSlashes (possible.path ▸ possible.way)
  rw [← possible.path, possible.leads] at made
  rw [SimpleRsync.copyFile, if_neg (Nat.not_le.mpr possible.short)]
  apply Program.Always.bind
  apply made.mono
  rintro _ between ⟨rfl, grown, resolved⟩
  rw [if_neg (by decide)]
  have notDirectory : between.files.isDirectory task.target = false := by
    rcases grown.files task.target with same | ⟨absent, above, _⟩
    · rw [Files.isDirectory, same]
      exact possible.notDirectory
    · exact absurd above (possible.notAbove absent)
  have works := works_changingTarget possible.different
  have copied : (changingTarget task).Follows Answers (fun result after => result = 0 ∧
      ∃ copy, copy.data = task.file.data ∧ Writing task.sourcePath task.targetPath task.place
        task.target task.file copy after)
      (copyFileData task.sourcePath task.targetPath) between := by
    apply copyFileData_follows works (Looks.alone (Changes.refl _ _) between) _ _ _ rfl
    · rintro other rfl
      exact grown.lookup reads
    · rintro other rfl
      rw [grown.sameCwd]
      exact possible.leads
    · rintro _ other rfl
      exact ⟨resolved, notDirectory⟩
  apply Program.Always.bind
  apply (throughout_of_changing copied).mono
  rintro _ written ⟨⟨rfl, copy, whole, writing⟩, first⟩
  rw [if_neg (by decide)]
  apply Program.Always.bind
  apply (throughout_of_changing (copyFileAttributes_follows works writing)).mono
  rintro _ after ⟨⟨rfl, finished⟩, second⟩
  rw [if_neg (by decide)]
  rw [whole] at finished
  exact ⟨rfl, between, grown, first.trans second, finished⟩

/-- The comparison is told what it finds, and changes nothing. -/
theorem destinationIsIdentical_throughout
    (reads : state.lookup task.sourcePath = some (task.place, .regular task.file)) :
    Throughout True (fun result after =>
        result = SimpleRsync.comparison task.file (state.lookup task.targetPath) ∧ after = state)
      (destinationIsIdentical task.sourcePath task.targetPath) state := by
  have looks : Looks (Conduct.alone SysState fun _ => True) fun other => other = state :=
    Looks.alone (fun _ => trivial) state
  apply throughout_of_follows
  have seesSource : ∀ other, other = state →
      other.lookup task.sourcePath = some (task.place, .regular task.file) := by
    rintro other rfl
    exact reads
  apply destinationIsIdentical_follows looks seesSource _ rfl
  rintro other rfl
  rfl

theorem syncFile_throughout (possible : Copyable state task front name)
    (reads : state.lookup task.sourcePath = some (task.place, .regular task.file)) :
    Throughout True (fun result after => result = 0 ∧
        if SimpleRsync.comparison task.file (state.lookup task.targetPath) = true then after = state
        else CopiesTask task state after)
      (SimpleRsync.syncFile task.sourcePath task.targetPath false) state := by
  apply Program.Always.call fun _ => ⟨_, _, .stat _ state⟩
  intro found after answered
  rcases answers_stat answered with ⟨rfl, rfl⟩
  rw [statOf_of_lookup reads]
  apply Program.Always.bind
  apply (destinationIsIdentical_throughout reads).mono
  rintro result between ⟨rfl, rfl⟩
  split
  · exact ⟨rfl, rfl⟩
  · rw [if_neg Bool.false_ne_true]
    exact copyFile_throughout possible reads

/-- A dry run names the file if it is not the same. -/
theorem syncFile_names
    (reads : state.lookup task.sourcePath = some (task.place, .regular task.file)) :
    Throughout True (fun result after => result = 0 ∧ after = state.naming
        (if SimpleRsync.comparison task.file (state.lookup task.targetPath) = true then []
        else [(task.sourcePath, task.targetPath)]))
      (SimpleRsync.syncFile task.sourcePath task.targetPath true) state := by
  apply Program.Always.call fun _ => ⟨_, _, .stat _ state⟩
  intro found after answered
  rcases answers_stat answered with ⟨rfl, rfl⟩
  rw [statOf_of_lookup reads]
  apply Program.Always.bind
  apply (destinationIsIdentical_throughout reads).mono
  rintro result between ⟨rfl, rfl⟩
  split
  · refine ⟨rfl, ?_⟩
    rw [SysState.naming, List.append_nil]
  · rw [if_pos rfl]
    apply Program.Always.call fun _ => ⟨_, _, .report _ _ between⟩
    intro _ after answered
    cases answered
    exact ⟨rfl, rfl⟩

end OneFile

/-! ## All files -/

section Files

variable {start state after : SysState} {depth : Nat} {srcDir dstDir : Bytes} {source target : Place}
  {names front : List Bytes} {name : Bytes} {file : RegularFile} {done : List Bytes → Prop}

/-- The path of a file that is not the same at its destination. -/
def Rewritten (start : SysState) (dstDir : Bytes) (source target : Place) (done : List Bytes → Prop)
    (path : Bytes) : Prop :=
  ∃ names file, done names ∧ start.files (source ++ names) = some (.regular file) ∧
    ¬ LeftAlone start target names file ∧ path = dstDir ++ Path.below names

/-- Some files were visited. What is new are directories, the files that were not the same
have their copies, and the others are what they were. -/
structure Halfway (start : SysState) (dstDir : Bytes) (source target : Place)
    (done : List Bytes → Prop) (state : SysState) : Prop
    extends Mirror start dstDir source target done state where
  made : ∀ place, (∀ names file, start.files (source ++ names) = some (.regular file) →
    place ≠ target ++ names) → state.files place = start.files place ∨
      start.files place = none ∧ state.files.isDirectory place = true
  untouched : ∀ names file, start.files (source ++ names) = some (.regular file) → ¬ done names →
    state.files (target ++ names) = start.files (target ++ names)
  copied : ∀ names file, start.files (source ++ names) = some (.regular file) → done names →
    ¬ LeftAlone start target names file →
    state.lookup (dstDir ++ Path.below names) = some (target ++ names, .regular file)
  opened : ∀ path, path ∈ state.opened ↔
    path ∈ start.opened ∨ Rewritten start dstDir source target done path

theorem Halfway.refl (start : SysState) (dstDir : Bytes) (source target : Place) :
    Halfway start dstDir source target (fun _ => False) start where
  toMirror := Mirror.refl start dstDir source target
  made := fun _ _ => Or.inl rfl
  untouched := fun _ _ _ _ => rfl
  copied := fun _ _ _ impossible => impossible.elim
  opened := by
    intro path
    simp only [Rewritten, false_and, exists_false, or_false]

theorem Rewritten.congr {more : List Bytes → Prop} {path : Bytes}
    (same : ∀ names file, start.files (source ++ names) = some (.regular file) →
      (more names ↔ done names)) :
    Rewritten start dstDir source target more path ↔ Rewritten start dstDir source target done path :=
  exists₂_congr fun names file => by
    constructor
    · rintro ⟨isMore, isFile, rest⟩
      exact ⟨(same names file isFile).mp isMore, isFile, rest⟩
    · rintro ⟨isDone, isFile, rest⟩
      exact ⟨(same names file isFile).mpr isDone, isFile, rest⟩

theorem Halfway.congr {more : List Bytes → Prop}
    (halfway : Halfway start dstDir source target done state)
    (same : ∀ names file, start.files (source ++ names) = some (.regular file) →
      (more names ↔ done names)) : Halfway start dstDir source target more state where
  toMirror := halfway.toMirror.mono fun names file isFile => (same names file isFile).mp
  made := halfway.made
  untouched := fun names file isFile notMore =>
    halfway.untouched names file isFile fun isDone => notMore ((same names file isFile).mpr isDone)
  copied := fun names file isFile isMore =>
    halfway.copied names file isFile ((same names file isFile).mp isMore)
  opened := fun path => (halfway.opened path).trans (or_congr_right (Rewritten.congr same).symm)

/-- The file at some names, as something to do. -/
def taskAt (srcDir dstDir : Bytes) (source target : Place) (names : List Bytes) (file : RegularFile) :
    Task where
  sourcePath := srcDir ++ Path.below names
  targetPath := dstDir ++ Path.below names
  place := source ++ names
  target := target ++ names
  file := file

theorem exists_of_isFile (isFile : start.files (source ++ names) = some (.regular file)) :
    start.files (source ++ names) ≠ none := by
  rw [isFile]
  exact Option.some_ne_none _

/-- The destination of a file is not above that of a file. -/
theorem Trees.notAbove_file (trees : Trees start depth srcDir dstDir source target)
    {others : List Bytes} {other : RegularFile}
    (isFile : start.files (source ++ (front ++ [name])) = some (.regular file))
    (isOther : start.files (source ++ others) = some (.regular other))
    (absent : start.files (target ++ others) = none) :
    ¬ Above start.cwd (dstDir ++ Path.below (front ++ [name])) (target ++ others) := by
  intro above
  rw [Path.below_concat, ← List.append_assoc] at above
  exact trees.file_notWay isOther absent (trees.way_of_above (exists_of_isFile isFile) above absent)

/-- At a destination there is what was there at the start, or a copy. -/
theorem Halfway.destination (halfway : Halfway start dstDir source target done state)
    (isFile : start.files (source ++ names) = some (.regular file)) :
    state.files (target ++ names) = start.files (target ++ names) ∨
      ∃ copy, state.files (target ++ names) = some (.regular copy) := by
  rcases halfway.files names file isFile with (⟨_, untouched⟩ | ⟨_, copy, isCopy, _⟩) | ⟨_, untouched⟩
  · exact Or.inl untouched
  · exact Or.inr ⟨copy, isCopy⟩
  · exact Or.inl untouched

/-- The last file is the same exactly if it was so at the start, or has been copied. -/
theorem Halfway.comparison (halfway : Halfway start dstDir source target done state)
    (trees : Trees start depth srcDir dstDir source target)
    (isFile : start.files (source ++ names) = some (.regular file)) :
    SimpleRsync.comparison file (state.lookup (dstDir ++ Path.below names)) = true ↔
      LeftAlone start target names file ∨ done names := by
  by_cases left : LeftAlone start target names file
  · refine iff_of_true ?_ (Or.inl left)
    apply (halfway.comparison_target trees isFile _).mpr left
    rcases halfway.files names file isFile with (⟨_, untouched⟩ | ⟨notLeft, _⟩) | ⟨_, untouched⟩
    · exact untouched
    · exact absurd left notLeft
    · exact untouched
  by_cases isDone : done names
  · refine iff_of_true ?_ (Or.inr isDone)
    rw [halfway.copied names file isFile isDone left]
    exact comparison_copy ⟨rfl, rfl⟩ _
  · rw [halfway.comparison_target trees isFile (halfway.untouched names file isFile isDone)]
    exact iff_of_false left fun either => either.elim left isDone

/-- Nothing that could be in the way is a file. -/
theorem Halfway.way (halfway : Halfway start dstDir source target done state)
    (trees : Trees start depth srcDir dstDir source target) (types : RightTypes start source target)
    (isFile : start.files (source ++ (front ++ [name])) = some (.regular file)) {rung : Bytes}
    (member : rung ∈ slashPrefixes (dstDir ++ Path.below (front ++ [name]))) :
    ¬ NamesFile state rung := by
  have proper := trees.wellFormed.names_proper (exists_of_isFile isFile)
  -- A file at the place was there at the start.
  have isOld : ∀ place, (∀ names file, start.files (source ++ names) = some (.regular file) →
      place ≠ target ++ names) → ∀ other, state.files place = some (.regular other) →
      start.files place = some (.regular other) := by
    intro place noTarget other there
    rcases halfway.made place noTarget with same | ⟨_, directory⟩
    · rw [← same, there]
    · rw [Files.isDirectory, there] at directory
      cases directory
  rintro ⟨other, isOther⟩
  rw [halfway.sameCwd] at isOther
  rw [Path.below_concat, ← List.append_assoc, slashPrefixes_join (proper name (by simp)).noSlash,
    if_neg (List.append_ne_nil_of_left_ne_nil trees.nonempty _)] at member
  rcases mem_ladder_below trees.nonempty
    (fun among isAmong => (proper among (List.mem_append_left _ isAmong)).noSlash) member with
    inFront | ⟨higher, ⟨more, rfl⟩, rfl⟩
  · rcases trees.way rung inFront with ⟨place, leads⟩ | ⟨absent, isAbove⟩
    · have directory := halfway.directories place leads.2
      rw [Files.resolve_eq leads.1, Files.isDirectory, isOther] at directory
      cases directory
    · have wasThere := isOld _ (fun names file isSource same => ?_) other isOther
      · rw [absent] at wasThere
        cases wasThere
      · rw [same] at isAbove
        rcases isAbove with ⟨rest, isTarget⟩
        have lengths := congrArg List.length isTarget
        simp only [List.length_append] at lengths
        rw [List.length_eq_zero_iff.mp (by omega : names.length = 0), List.append_nil] at isSource
        have directory := trees.leads.2
        rw [Files.isDirectory, isSource] at directory
        cases directory
  · have thereBelow := exists_of_isFile isFile
    rw [List.append_assoc] at thereBelow
    have directory := trees.directory_above (by simp) thereBelow
    rcases Files.isDirectory_iff.mp directory with ⟨size, mtime, there⟩
    rw [trees.target_destination (by rw [there]; exact Option.some_ne_none _)] at isOther
    have wasThere := isOld _ (fun names file isSource same => ?_) other isOther
    · exact absurd (types _ _ _ there wasThere) Bool.noConfusion
    · cases List.append_cancel_left same
      rw [there] at isSource
      cases isSource

/-- Every file can be copied when its turn comes. -/
theorem Halfway.copyable (halfway : Halfway start dstDir source target done state)
    (trees : Trees start depth srcDir dstDir source target) (types : RightTypes start source target)
    (cwd : start.files.isDirectory start.cwd = true)
    (isFile : start.files (source ++ (front ++ [name])) = some (.regular file)) :
    Copyable state (taskAt srcDir dstDir source target (front ++ [name]) file)
      (dstDir ++ Path.below front) name := by
  have there := exists_of_isFile isFile
  have proper := trees.wellFormed.names_proper there
  have noDirectory : start.files.isDirectory (target ++ (front ++ [name])) = false := by
    cases isThere : start.files (target ++ (front ++ [name])) with
    | none => rw [Files.isDirectory, isThere]
    | some node =>
        have same := types _ _ _ isFile isThere
        cases node with
        | regular other => exact SysState.isDirectory_of_regular isThere
        | directory size mtime => cases same
  exact
    { path := by
        dsimp only [taskAt]
        rw [Path.below_concat, List.append_assoc]
      short := Nat.lt_of_le_of_lt (trees.fits _ there).2.2 (by decide)
      proper := proper name (by simp)
      notSlashes := trees.notSlashes fun other among => proper other (List.mem_append_left _ among)
      different := trees.apart _ _
      leads := by
        rw [halfway.sameCwd]
        exact trees.target_destination there
      root := halfway.directories _ trees.wellFormed.root
      cwd := by
        rw [halfway.sameCwd]
        exact halfway.directories _ cwd
      way := fun rung member => halfway.way trees types isFile member
      notDirectory := by
        dsimp only [taskAt]
        rcases halfway.destination isFile with untouched | ⟨copy, isCopy⟩
        · rw [Files.isDirectory, untouched]
          exact noDirectory
        · exact SysState.isDirectory_of_regular isCopy
      notAbove := by
        dsimp only [taskAt]
        rw [halfway.sameCwd]
        rcases halfway.destination isFile with untouched | ⟨copy, isCopy⟩
        · rw [untouched]
          exact trees.notAbove_file isFile isFile
        · rw [isCopy]
          exact fun absent => absurd absent (Option.some_ne_none _) }

/-- A copy changes the destination of its file, and makes directories above it. -/
theorem CopiesTask.touched {task : Task} (copies : CopiesTask task state after) :
    Touched (Above state.cwd task.targetPath) task.target state after := by
  rcases copies with ⟨between, grown, changes, _⟩
  apply Touched.of_grown grown
  refine ⟨changes.sameCwd, changes.directories, fun place different => ?_⟩
  rcases changes.files place with same | ⟨_, rfl, _, isTarget⟩
  · exact same
  · exact absurd isTarget different

theorem CopiesTask.opened {task : Task} (copies : CopiesTask task state after) (path : Bytes) :
    path ∈ after.opened ↔ path ∈ state.opened ∨ path = task.targetPath := by
  rcases copies with ⟨between, grown, changes, writing⟩
  have sameOpened : between.opened = state.opened := by
    rw [grown.others]
  rcases changes.opens with ⟨more, isMore, each⟩
  constructor
  · intro member
    rw [isMore, sameOpened] at member
    rcases List.mem_append.mp member with before | new
    · exact Or.inl before
    · rcases each path new with ⟨_, rfl, _, isPath⟩
      exact Or.inr isPath
  · rintro (before | rfl)
    · rw [isMore, sameOpened]
      exact List.mem_append_left _ before
    · exact writing.opened

/-- A file that is the same needs no visit. -/
theorem Halfway.left (halfway : Halfway start dstDir source target done state)
    (trees : Trees start depth srcDir dstDir source target)
    (isFile : start.files (source ++ (front ++ [name])) = some (.regular file))
    (either : LeftAlone start target (front ++ [name]) file ∨ done (front ++ [name])) :
    Halfway start dstDir source target (fun other => done other ∨ other = front ++ [name]) state := by
  have settled : FileSettled start target (front ++ [name]) file state :=
    halfway.settle trees isFile (by rw [if_pos ((halfway.comparison trees isFile).mpr either)])
  have wasDone : ∀ names other, start.files (source ++ names) = some (.regular other) →
      ¬ LeftAlone start target names other → done names ∨ names = front ++ [name] → done names := by
    rintro names other isOther notLeft (isDone | rfl)
    · exact isDone
    · rw [isFile] at isOther
      cases isOther
      exact either.resolve_left notLeft
  exact
    { toMirror := halfway.toMirror.step trees isFile (Touched.refl _ _ _) settled
      made := halfway.made
      untouched := fun names other isOther notDone =>
        halfway.untouched names other isOther fun isDone => notDone (Or.inl isDone)
      copied := fun names other isOther isDone notLeft =>
        halfway.copied names other isOther (wasDone names other isOther notLeft isDone) notLeft
      opened := by
        intro path
        rw [halfway.opened]
        apply or_congr_right
        constructor
        · rintro ⟨names, other, isDone, rest⟩
          exact ⟨names, other, Or.inl isDone, rest⟩
        · rintro ⟨names, other, isDone, isOther, notLeft, isPath⟩
          exact ⟨names, other, wasDone names other isOther notLeft isDone, isOther, notLeft, isPath⟩ }

/-- A copy leaves the other destinations alone. -/
theorem Halfway.others_same (halfway : Halfway start dstDir source target done state)
    (trees : Trees start depth srcDir dstDir source target)
    (isFile : start.files (source ++ (front ++ [name])) = some (.regular file))
    (copies : CopiesTask (taskAt srcDir dstDir source target (front ++ [name]) file) state after)
    {others : List Bytes} {other : RegularFile}
    (isOther : start.files (source ++ others) = some (.regular other))
    (different : others ≠ front ++ [name]) :
    after.files (target ++ others) = state.files (target ++ others) := by
  have touched := copies.touched
  dsimp only [taskAt] at touched
  rcases touched.others _ fun same => different (List.append_cancel_left same) with
    same | ⟨absent, above, _⟩
  · exact same
  · rw [halfway.sameCwd] at above
    rcases halfway.destination isOther with untouched | ⟨copy, isCopy⟩
    · rw [untouched] at absent
      exact absurd above (trees.notAbove_file isFile isOther absent)
    · rw [isCopy] at absent
      cases absent

/-- Any other file is copied. -/
theorem Halfway.copies (halfway : Halfway start dstDir source target done state)
    (trees : Trees start depth srcDir dstDir source target) (types : RightTypes start source target)
    (cwd : start.files.isDirectory start.cwd = true)
    (isFile : start.files (source ++ (front ++ [name])) = some (.regular file))
    (neither : ¬ (LeftAlone start target (front ++ [name]) file ∨ done (front ++ [name])))
    (copies : CopiesTask (taskAt srcDir dstDir source target (front ++ [name]) file) state after) :
    Halfway start dstDir source target (fun other => done other ∨ other = front ++ [name]) after := by
  have possible := halfway.copyable trees types cwd isFile
  have touched := copies.touched
  have opened := copies.opened
  have same : ∀ names other, start.files (source ++ names) = some (.regular other) →
      names ≠ front ++ [name] → after.files (target ++ names) = state.files (target ++ names) :=
    fun _ _ isOther different => halfway.others_same trees isFile copies isOther different
  rcases copies with ⟨_, _, _, writing⟩
  rw [not_or] at neither
  have isThere := (Files.lookup_eq_some.mp writing.writes).2
  have settled : FileSettled start target (front ++ [name]) file after :=
    Or.inr ⟨neither.1, file, isThere, rfl, rfl⟩
  have path : dstDir ++ Path.below (front ++ [name]) = dstDir ++ Path.below front ++ Path.SLASH :: name :=
    possible.path
  dsimp only [taskAt] at touched opened writing
  rw [halfway.sameCwd, path] at touched
  exact
    { toMirror := halfway.toMirror.step trees isFile touched settled
      made := by
        intro place noTarget
        rcases touched.others place (noTarget _ _ isFile) with isSame | ⟨absent, _, directory⟩
        · rcases halfway.made place noTarget with before | ⟨absent, directory⟩
          · exact Or.inl (isSame.trans before)
          · exact Or.inr ⟨absent, touched.directories place directory⟩
        · rcases halfway.made place noTarget with before | ⟨_, isDirectory⟩
          · exact Or.inr ⟨before.symm.trans absent, directory⟩
          · rw [Files.isDirectory, absent] at isDirectory
            cases isDirectory
      untouched := by
        intro names other isOther notDone
        rw [not_or] at notDone
        rw [same names other isOther notDone.2]
        exact halfway.untouched names other isOther notDone.1
      copied := by
        intro names other isOther isDone notLeft
        rcases eq_or_ne names (front ++ [name]) with rfl | different
        · rw [isFile] at isOther
          cases isOther
          exact writing.writes
        · rcases Files.lookup_eq_some.mp
            (halfway.copied names other isOther (isDone.resolve_right different) notLeft) with
            ⟨resolved, isCopy⟩
          apply Files.lookup_eq_some.mpr
          rw [touched.sameCwd, same names other isOther different]
          exact ⟨Files.resolve_mono touched.directories resolved, isCopy⟩
      opened := by
        intro path
        rw [opened, halfway.opened, or_assoc]
        apply or_congr_right
        constructor
        · rintro (⟨names, other, isDone, rest⟩ | rfl)
          · exact ⟨names, other, Or.inl isDone, rest⟩
          · exact ⟨_, file, Or.inr rfl, isFile, neither.1, rfl⟩
        · rintro ⟨names, other, isDone | rfl, isOther, notLeft, isPath⟩
          · exact Or.inl ⟨names, other, isDone, isOther, notLeft, isPath⟩
          · exact Or.inr isPath }

end Files

/-! ## Whole runs -/

section Runs

variable {start after : SysState} {depth : Nat} {srcDir dstDir : Bytes} {source target : Place}

theorem visits_real (trees : Trees start depth srcDir dstDir source target)
    (types : RightTypes start source target) (cwd : start.files.isDirectory start.cwd = true) :
    FileVisits True false start srcDir dstDir source (Halfway start dstDir source target) where
  congr := fun _ _ _ halfway same => halfway.congr same
  found := fun _ _ _ _ halfway there => halfway.lookup_source trees there
  sameSource := fun _ _ halfway names => halfway.source_same trees names
  syncFile := by
    intro done state names file halfway isFile
    rcases trees.last_name isFile with ⟨front, name, rfl⟩
    have reads := halfway.lookup_source trees isFile
    apply (syncFile_throughout (halfway.copyable trees types cwd isFile) reads).mono
    rintro _ after ⟨rfl, outcome⟩
    refine ⟨rfl, ?_⟩
    have comparison := halfway.comparison trees isFile
    split at outcome
    · rename_i identical
      subst outcome
      exact halfway.left trees isFile (comparison.mp identical)
    · rename_i differs
      exact halfway.copies trees types cwd isFile (fun either => differs (comparison.mpr either)) outcome

/-- A dry run has named the visited files that are not the same. -/
def Named (start : SysState) (dstDir : Bytes) (source target : Place) (done : List Bytes → Prop)
    (state : SysState) : Prop :=
  ∃ named : List (Bytes × Bytes), state = start.naming named ∧ ∀ path,
    path ∈ named.map Prod.snd ↔ Rewritten start dstDir source target done path

theorem visits_dry (trees : Trees start depth srcDir dstDir source target) :
    FileVisits True true start srcDir dstDir source (Named start dstDir source target) where
  congr := by
    rintro done more _ ⟨named, rfl, members⟩ same
    exact ⟨named, rfl, fun path => (members path).trans (Rewritten.congr same).symm⟩
  found := by
    rintro done _ names node ⟨named, rfl, _⟩ there
    exact trees.resolve_source there
  sameSource := by
    rintro done _ ⟨named, rfl, _⟩ names
    rfl
  syncFile := by
    rintro done _ names file ⟨named, rfl, members⟩ isFile
    have reads : (start.naming named).lookup (taskAt srcDir dstDir source target names file).sourcePath =
        some (source ++ names, .regular file) := trees.resolve_source isFile
    apply (syncFile_names reads).mono
    rintro _ after ⟨rfl, isAfter⟩
    have comparison := (Mirror.refl start dstDir source target).comparison_target trees isFile rfl
    change after = (start.naming named).naming
      (if SimpleRsync.comparison file (start.lookup (dstDir ++ Path.below names)) = true then []
      else [(srcDir ++ Path.below names, dstDir ++ Path.below names)]) at isAfter
    simp only [SysState.naming, List.append_assoc] at isAfter
    refine ⟨rfl, _, isAfter, fun path => ?_⟩
    rw [List.map_append, List.mem_append, members]
    split
    · rename_i identical
      have left := comparison.mp identical
      simp only [List.map_nil, List.not_mem_nil, or_false]
      constructor
      · rintro ⟨others, other, isDone, rest⟩
        exact ⟨others, other, Or.inl isDone, rest⟩
      · rintro ⟨others, other, isDone | rfl, isOther, notLeft, isPath⟩
        · exact ⟨others, other, isDone, isOther, notLeft, isPath⟩
        · rw [isFile] at isOther
          cases isOther
          exact absurd left notLeft
    · rename_i differs
      have notLeft := fun left => differs (comparison.mpr left)
      simp only [List.map_cons, List.map_nil, List.mem_singleton]
      constructor
      · rintro (⟨others, other, isDone, rest⟩ | rfl)
        · exact ⟨others, other, Or.inl isDone, rest⟩
        · exact ⟨names, file, Or.inr rfl, isFile, notLeft, rfl⟩
      · rintro ⟨others, other, isDone | rfl, isOther, otherNotLeft, isPath⟩
        · exact Or.inl ⟨others, other, isDone, isOther, otherNotLeft, isPath⟩
        · exact Or.inr isPath

/-- Behind a run every file of the source is at its destination, and nothing else has
changed but for directories above such files. -/
structure Mirrored (start after : SysState) (dstDir : Bytes) (source target : Place) : Prop where
  files : ∀ names file, start.files (source ++ names) = some (.regular file) →
    simple.SynchronisedFile start after target names file
  sameSource : ∀ names, after.files (source ++ names) = start.files (source ++ names)
  others : ∀ place, (∀ names file, start.files (source ++ names) = some (.regular file) →
    place ≠ target ++ names) → after.files place = start.files place ∨
      start.files place = none ∧ after.files.isDirectory place = true ∧
        Way start dstDir source target place

theorem Halfway.mirrored (halfway : Halfway start dstDir source target (fun _ => True) after)
    (trees : Trees start depth srcDir dstDir source target) (types : RightTypes start source target) :
    Mirrored start after dstDir source target where
  files := by
    intro names file isFile
    by_cases left : LeftAlone start target names file
    · rcases left with ⟨node, isThere, identical⟩
      have same := types _ _ _ isFile isThere
      cases node with
      | directory size mtime => cases same
      | regular copy =>
          have untouched : after.files (target ++ names) = start.files (target ++ names) := by
            rcases halfway.files names file isFile with (⟨_, untouched⟩ | ⟨notLeft, _⟩) | ⟨_, untouched⟩
            · exact untouched
            · exact absurd ⟨_, isThere, identical⟩ notLeft
            · exact untouched
          exact ⟨copy, untouched.trans isThere, Or.inr ⟨untouched, identical⟩⟩
    · have isThere := (Files.lookup_eq_some.mp (halfway.copied names file isFile trivial left)).2
      exact ⟨file, isThere, Or.inl ⟨rfl, rfl⟩⟩
  sameSource := halfway.source_same trees
  others := by
    intro place noTarget
    rcases halfway.made place noTarget with same | ⟨absent, directory⟩
    · exact Or.inl same
    · rcases halfway.others place noTarget with same | ⟨_, way⟩
      · exact Or.inl same
      · exact Or.inr ⟨absent, directory, way⟩

/-- Every run of `sync_directory` comes to its end, returns 0 and leaves the files of the
source at their destinations. It opens the files for writing that a dry run names, which
changes nothing. -/
theorem syncDirectory_dryRun (trees : Trees start depth srcDir dstDir source target)
    (types : RightTypes start source target) (cwd : start.files.isDirectory start.cwd = true)
    (finite : {names | start.files (source ++ names) ≠ none}.Finite)
    (fresh : start.opened = [] ∧ start.reported = []) :
    Throughout True (fun result after => result = 0 ∧ Mirrored start after dstDir source target ∧
        ∀ path, path ∈ after.opened ↔ Rewritten start dstDir source target (fun _ => True) path)
      (SimpleRsync.syncDirectory false depth srcDir dstDir) start ∧
    Throughout True (fun result after => result = 0 ∧ after = { start with reported := after.reported } ∧
        ∀ path, path ∈ after.reported.map Prod.snd ↔
          Rewritten start dstDir source target (fun _ => True) path)
      (SimpleRsync.syncDirectory true depth srcDir dstDir) start := by
  constructor
  · apply ((visits_real trees types cwd).run trees (fun _ => finite)
      (Halfway.refl start dstDir source target)).mono
    rintro _ after ⟨rfl, halfway⟩
    refine ⟨rfl, halfway.mirrored trees types, fun path => ?_⟩
    rw [halfway.opened, fresh.1]
    exact or_iff_right List.not_mem_nil
  · have nothing : Named start dstDir source target (fun _ => False) start := by
      refine ⟨[], ?_, fun path => ?_⟩
      · rw [SysState.naming, List.append_nil]
      · simp only [Rewritten, List.map_nil, List.not_mem_nil, false_and, exists_false]
    apply ((visits_dry trees).run trees (fun _ => finite) nothing).mono
    rintro _ after ⟨rfl, named, rfl, members⟩
    refine ⟨rfl, rfl, fun path => ?_⟩
    rw [SysState.naming, fresh.2, List.nil_append]
    exact members path

end Runs

theorem twoTrees_trees : Trees twoTrees 2 [47, 115] [47, 116] [[115]] [[116]] where
  wellFormed := twoTrees_syncTrees.wellFormed
  leads := twoTrees_syncTrees.leads
  nonempty := by decide
  destination := by decide
  notAbove := by decide
  notBelow := by decide
  way := by
    intro rung member
    have isLadder : ladder [47, 116] = [[47, 116]] := by decide
    rw [isLadder, List.mem_singleton] at member
    rw [member]
    exact Or.inl ⟨[[116]], by decide, by decide⟩
  fits := by
    intro names there
    have among := twoTrees_source there
    simp only [List.mem_cons, List.not_mem_nil, or_false] at among
    rcases among with rfl | rfl | rfl
    · decide
    · decide
    · decide

/-- A dry run and a run of `/s` to `/t`, which writes the file that was named. -/
theorem syncDirectory_dryRun_twoTrees : ∃ after dry,
    Program.Runs Answers (SimpleRsync.syncDirectory false 2 [47, 115] [47, 116]) twoTrees 0 after ∧
    Program.Runs Answers (SimpleRsync.syncDirectory true 2 [47, 115] [47, 116]) twoTrees 0 dry ∧
    dry.files = twoTrees.files ∧ ∀ path, path ∈ dry.reported.map Prod.snd ↔ path ∈ after.opened := by
  rcases syncDirectory_dryRun twoTrees_trees twoTrees_types rfl twoTrees_unhindered.finite ⟨rfl, rfl⟩ with
    ⟨real, dry⟩
  rcases Program.Always.exists_run (fun _ _ answered => answered trivial) real with
    ⟨_, after, run, rfl, _, opened⟩
  rcases Program.Always.exists_run (fun _ _ answered => answered trivial) dry with
    ⟨_, last, runDry, rfl, same, named⟩
  refine ⟨after, last, run, runDry, ?_, fun path => (named path).trans (opened path).symm⟩
  rw [same]

end Apue.Sync.SimpleRsync
