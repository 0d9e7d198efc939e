import Apue.Sync.WholeRuns

/-! # What a synchronisation is worth

Behind a run of `perform_sync` the target has the directories and the files of the source,
and a second run finds nothing to do.
-/

namespace Apue.Sync

open Apue.Foundation

namespace Synchroniser

variable (kind : Synchroniser)

/-- A file has its copy in the target, or what was there was taken for the same and left
alone. -/
def SynchronisedFile (start after : SysState) (target : Place) (names : List Bytes)
    (file : RegularFile) : Prop :=
  ∃ copy, after.files (target ++ names) = some (.regular copy) ∧
    (kind.copies file copy ∨ after.files (target ++ names) = start.files (target ++ names) ∧
      kind.comparison file (some (target ++ names, .regular copy)) = true)

/-- The target has everything that is in the source, and nothing else has changed. -/
structure Synchronised (start after : SysState) (targetDir : Bytes) (source target : Place) : Prop where
  leads : after.files.LeadsToDirectory start.cwd targetDir target
  directories : ∀ names, start.files.isDirectory (source ++ names) = true →
    after.files.isDirectory (target ++ names) = true ∧
      (start.files (target ++ names) ≠ none →
        after.files (target ++ names) = start.files (target ++ names))
  files : ∀ names file, start.files (source ++ names) = some (.regular file) →
    kind.SynchronisedFile start after target names file
  sameSource : ∀ names, after.files (source ++ names) = start.files (source ++ names)
  sameOthers : ∀ names, start.files (source ++ names) = none →
    after.files (target ++ names) = start.files (target ++ names)

end Synchroniser

section Runs

variable {start base made after : SysState} {sourceDir targetDir : Bytes}
  {source target place : Place} {names : List Bytes} {listed : List (List Bytes)}
  {file : RegularFile} {node : Node} {total : Prop} {depth : Nat} {kind : Synchroniser}

/-! ## What is made on the way -/

theorem Grown.regular {ways : Place → Prop} (grown : Grown ways start after)
    (there : after.files place = some (.regular file)) :
    start.files place = some (.regular file) := by
  rcases grown.files place with same | ⟨_, _, directory⟩
  · rw [← same]
    exact there
  · rw [Files.isDirectory, there] at directory
    cases directory

theorem WayOutside.source_same (outside : WayOutside start targetDir source target)
    (created : Grown (OnTheWay start targetDir) start base) (names : List Bytes) :
    base.files (source ++ names) = start.files (source ++ names) := by
  rcases created.files (source ++ names) with same | ⟨absent, way, _⟩
  · exact same
  · exact absurd rfl ((outside _ way absent).1 names)

theorem RightTypes.created (types : RightTypes start source target)
    (outside : WayOutside start targetDir source target)
    (created : Grown (OnTheWay start targetDir) start base) : RightTypes base source target := by
  intro names node other there isOther
  rw [outside.source_same created] at there
  rcases created.files (target ++ names) with same | ⟨absent, way, isDirectory⟩
  · rw [same] at isOther
    exact types names node other there isOther
  · rcases Files.isDirectory_iff.mp ((outside _ way absent).2 names rfl) with ⟨size, mtime, isSource⟩
    rcases Files.isDirectory_iff.mp isDirectory with ⟨otherSize, otherMtime, isTarget⟩
    rw [isSource] at there
    rw [isTarget] at isOther
    cases there
    cases isOther
    rfl

/-- Nothing is in the way of a run. -/
structure Unhindered (start : SysState) (targetDir : Bytes) (source : Place) (depth : Nat) : Prop where
  cwd : start.files.isDirectory start.cwd = true
  way : ∀ rung ∈ slashPrefixes targetDir, ¬ NamesFile start rung
  finite : {names | start.files (source ++ names) ≠ none}.Finite
  deep : ∀ names, start.files (source ++ names) ≠ none → names.length < depth

theorem Unhindered.passable (unhindered : Unhindered start targetDir source depth)
    (trees : SyncTrees start sourceDir targetDir source target)
    (outside : WayOutside start targetDir source target) (types : RightTypes start source target)
    (created : Grown (OnTheWay start targetDir) start base) :
    Passable base targetDir source target depth where
  free :=
    { root := created.isDirectory trees.wellFormed.root
      cwd := by
        rw [created.sameCwd]
        exact created.isDirectory unhindered.cwd
      way := fun rung member => created.notFile (unhindered.way rung member)
      inside := by
        intro names isDirectory
        rw [Files.isDirectory, outside.source_same created] at isDirectory
        rcases Files.isDirectory_iff.mp isDirectory with ⟨size, mtime, there⟩
        have isThere : start.files (source ++ names) ≠ none := by
          rw [there]
          exact Option.some_ne_none _
        have proper := trees.wellFormed.names_proper isThere
        apply created.notFile
        rintro ⟨file, isFile⟩
        rw [Path.destination_below trees.nonempty proper, trees.destination] at isFile
        exact absurd (types names _ _ there isFile) Bool.noConfusion }
  types := types.created outside created
  finite := by
    simp only [outside.source_same created]
    exact unhindered.finite
  deep := by
    intro names there
    rw [outside.source_same created] at there
    exact unhindered.deep names there

/-! ## What is left of a run -/

theorem Leaves.source_same
    (leaves : Leaves kind start base made after sourceDir targetDir source target listed)
    (names : List Bytes) : after.files (source ++ names) = base.files (source ++ names) := by
  rw [← leaves.laid.source_same]
  apply (leaves.completed.files _).resolve_right
  rintro ⟨task, member, _, same⟩
  rcases leaves.laid.mem_tasks.mp member with ⟨others, _, rfl⟩
  exact leaves.laid.roots.apart names others same

/-- Where the source has no file, the workers do not touch the target. -/
theorem Leaves.target_same
    (leaves : Leaves kind start base made after sourceDir targetDir source target listed)
    (noFile : ¬ RegularAt base source names) :
    after.files (target ++ names) = made.files (target ++ names) := by
  apply (leaves.completed.files _).resolve_right
  rintro ⟨task, member, _, same⟩
  rcases leaves.laid.mem_tasks.mp member with ⟨others, isFile, rfl⟩
  cases List.append_cancel_left same
  rcases isFile with ⟨file, found⟩
  rw [leaves.laid.source_same] at found
  exact noFile ⟨file, found⟩

theorem Leaves.settled
    (leaves : Leaves kind start base made after sourceDir targetDir source target listed)
    (isFile : base.files (source ++ names) = some (.regular file)) :
    kind.Settled made (taskFor made sourceDir targetDir source target names) after ∧
      (taskFor made sourceDir targetDir source target names).file = file := by
  have found := isFile
  rw [← leaves.laid.source_same] at found
  exact ⟨leaves.completed.settled _ (leaves.laid.mem_tasks.mpr ⟨names, ⟨file, found⟩, rfl⟩),
    fileAt_of_regular found⟩

/-- Behind a run the comparison finds every file the same. -/
theorem Leaves.compared
    (leaves : Leaves kind start base made after sourceDir targetDir source target listed)
    (isFile : base.files (source ++ names) = some (.regular file)) :
    kind.comparison file (after.lookup (targetDir ++ Path.below names)) = true := by
  rcases leaves.settled isFile with ⟨settled, rfl⟩
  rcases settled with ⟨current, spared⟩ | ⟨_, _, copy, isCopy, found⟩
  · have found := isFile
    rw [← leaves.laid.source_same] at found
    have same := (leaves.laid.ready ⟨_, found⟩).lookup_target spared
    rw [Synchroniser.Outdated, Bool.not_eq_false, ← same] at current
    exact current
  · dsimp only [taskFor] at found
    rw [found]
    exact kind.same isCopy _

/-- Where the source has no directory, none is made in the target. -/
theorem LaidOut.target_same (laid : LaidOut start base made sourceDir targetDir source target listed)
    (outside : WayOutside start targetDir source target)
    (noDirectory : start.files.isDirectory (source ++ names) ≠ true) :
    made.files (target ++ names) = start.files (target ++ names) := by
  rcases laid.grown.files (target ++ names) with same | ⟨_, ⟨others, _, isOther, directory⟩, _⟩
  · rw [same]
    apply (laid.created.files (target ++ names)).resolve_right
    rintro ⟨absent, way, _⟩
    exact noDirectory ((outside _ way absent).2 names rfl)
  · cases List.append_cancel_left isOther
    rw [Files.isDirectory, outside.source_same laid.created] at directory
    exact absurd directory noDirectory

theorem not_isDirectory_of_regular (found : start.files place = some (.regular file)) :
    start.files.isDirectory place ≠ true := by
  rw [SysState.isDirectory_of_regular found]
  exact Bool.false_ne_true

/-- What a path leads to that is found the same as a file. -/
theorem Synchroniser.exists_of_comparison {path : Bytes}
    (same : kind.comparison file (start.lookup path) = true) :
    ∃ node, start.files (Path.destination start.cwd path) = some node ∧
      kind.comparison file (some (Path.destination start.cwd path, node)) = true := by
  cases found : start.lookup path with
  | none =>
      rw [found, kind.missing] at same
      cases same
  | some entry =>
      rcases entry with ⟨place, node⟩
      rw [found] at same
      rcases Files.lookup_eq_some.mp found with ⟨resolved, there⟩
      rw [← Files.resolve_eq resolved]
      exact ⟨node, there, same⟩

theorem Leaves.synchronisedFile
    (leaves : Leaves kind start base made after sourceDir targetDir source target listed)
    (outside : WayOutside start targetDir source target) (types : RightTypes start source target)
    (isFile : start.files (source ++ names) = some (.regular file)) :
    kind.SynchronisedFile start after target names file := by
  have found := isFile
  rw [← outside.source_same leaves.laid.created] at found
  rcases leaves.settled found with ⟨⟨_, spared⟩ | ⟨_, _, copy, copied, isCopy⟩, isTaskFile⟩
  · rcases Synchroniser.exists_of_comparison (leaves.compared found) with ⟨node, there, same⟩
    have inSource : made.files (source ++ names) ≠ none := by
      rw [leaves.laid.source_same, found]
      exact Option.some_ne_none _
    rw [leaves.completed.sameCwd, leaves.laid.destination inSource] at there same
    have unchanged : after.files (target ++ names) = start.files (target ++ names) :=
      spared.target.trans
        (leaves.laid.target_same outside (not_isDirectory_of_regular isFile))
    have right := types names _ node isFile (unchanged ▸ there)
    cases node with
    | directory size mtime => cases right
    | regular copy => exact ⟨copy, there, Or.inr ⟨unchanged, same⟩⟩
  · rw [isTaskFile] at copied
    exact ⟨copy, (Files.lookup_eq_some.mp isCopy).2, Or.inl copied⟩

theorem Leaves.synchronised
    (leaves : Leaves kind start base made after sourceDir targetDir source target listed)
    (trees : SyncTrees start sourceDir targetDir source target)
    (outside : WayOutside start targetDir source target) (types : RightTypes start source target) :
    kind.Synchronised start after targetDir source target := by
  have created := leaves.laid.created
  have root := created.isDirectory trees.wellFormed.root
  have baseTypes := types.created outside created
  have leads : ∀ names, start.files.isDirectory (source ++ names) = true →
      made.files.LeadsToDirectory made.cwd (targetDir ++ Path.below names) (target ++ names) := by
    intro names isDirectory
    apply leaves.laid.leads root baseTypes
    rw [Files.isDirectory, outside.source_same created]
    exact isDirectory
  have noFile : ∀ names, (∀ file, start.files (source ++ names) ≠ some (.regular file)) →
      after.files (target ++ names) = made.files (target ++ names) := by
    intro names notRegular
    apply leaves.target_same
    rintro ⟨file, found⟩
    rw [outside.source_same created] at found
    exact notRegular file found
  constructor
  · have whole := leads [] (by
      rw [List.append_nil]
      exact trees.leads.2)
    rw [Path.below_nil, List.append_nil, List.append_nil] at whole
    rw [← created.sameCwd, ← leaves.laid.grown.sameCwd, ← leaves.completed.sameCwd]
    exact ⟨(leaves.completed.resolve _).trans whole.1,
      (leaves.completed.directories target).trans whole.2⟩
  · intro names isDirectory
    refine ⟨(leaves.completed.directories _).trans (leads names isDirectory).2, fun there => ?_⟩
    rcases Option.ne_none_iff_exists'.mp there with ⟨node, isThere⟩
    rw [noFile, isThere]
    · exact leaves.laid.grown.there (created.there isThere)
    · intro file found
      rw [Files.isDirectory, found] at isDirectory
      cases isDirectory
  · exact fun names file isFile => leaves.synchronisedFile outside types isFile
  · intro names
    rw [leaves.source_same, outside.source_same created]
  · intro names absent
    rw [noFile]
    · apply leaves.laid.target_same outside
      rw [Files.isDirectory, absent]
      exact Bool.false_ne_true
    · intro file found
      rw [absent] at found
      cases found

/-- What is missing on the way is there behind a run. -/
theorem Leaves.way_there
    (leaves : Leaves kind start base made after sourceDir targetDir source target listed)
    (way : OnTheWay start targetDir place) (absent : start.files place = none) :
    after.files.isDirectory place = true := by
  rw [leaves.completed.directories]
  apply leaves.laid.grown.isDirectory
  rcases way with ⟨rung, member, rfl⟩
  have there := leaves.laid.roots.made.there leaves.laid.roots.short leaves.laid.roots.notRoot member
  rw [leaves.laid.created.sameCwd] at there
  rcases leaves.laid.created.files (Path.destination start.cwd rung) with same | ⟨_, _, directory⟩
  · rw [same] at there
    exact absurd absent there
  · exact directory

/-- Nothing else has changed only if the way to the target is outside. -/
theorem Leaves.wayOutside
    (leaves : Leaves kind start base made after sourceDir targetDir source target listed)
    (synchronised : kind.Synchronised start after targetDir source target) :
    WayOutside start targetDir source target := by
  intro place way absent
  have directory := leaves.way_there way absent
  constructor
  · rintro names rfl
    rw [Files.isDirectory, synchronised.sameSource, absent] at directory
    cases directory
  · rintro names rfl
    cases found : start.files (source ++ names) with
    | none =>
        rw [Files.isDirectory, synchronised.sameOthers names found, absent] at directory
        cases directory
    | some node =>
        cases node with
        | directory size mtime => exact Files.isDirectory_iff.mpr ⟨size, mtime, found⟩
        | regular file =>
            rcases synchronised.files names file found with ⟨copy, isCopy, _⟩
            rw [Files.isDirectory, isCopy] at directory
            cases directory

/-! ## A second run -/

/-- Behind a run the trees are such that there can be another one. -/
theorem Leaves.trees (leaves : Leaves kind start base made after sourceDir targetDir source target listed)
    (trees : SyncTrees start sourceDir targetDir source target)
    (wellFormed : after.files.WellFormed) : SyncTrees after sourceDir targetDir source target where
  wellFormed := wellFormed
  leads := by
    have directory := leaves.laid.grown.isDirectory (leaves.laid.created.isDirectory trees.leads.2)
    have resolved := leaves.laid.grown.resolve (leaves.laid.created.resolve trees.leads.1)
    exact ⟨(leaves.completed.resolve _).trans resolved,
      (leaves.completed.directories _).trans directory⟩
  nonempty := trees.nonempty
  short := trees.short
  destination := by
    rw [leaves.completed.sameCwd, leaves.laid.grown.sameCwd, leaves.laid.created.sameCwd]
    exact trees.destination
  notAbove := trees.notAbove
  notBelow := trees.notBelow
  fits := by
    intro names more there
    apply trees.fits names more
    rw [OnTheWay, leaves.completed.sameCwd, leaves.laid.grown.sameCwd, leaves.laid.created.sameCwd,
      leaves.source_same] at there
    rcases there with isThere | way
    · rcases leaves.laid.created.files (source ++ names) with same | ⟨_, way, _⟩
      · rw [same] at isThere
        exact Or.inl isThere
      · exact Or.inr way
    · exact Or.inr way

/-- Where nothing can be new, nothing changes. -/
theorem Grown.same {ways : Place → Prop} (grown : Grown ways start after)
    (there : ∀ place, ways place → start.files place ≠ none) : after = start := by
  have files : after.files = start.files := by
    funext place
    rcases grown.files place with same | ⟨absent, way, _⟩
    · exact same
    · exact absurd absent (there place way)
  rw [grown.others, files]

/-- All directories are made already. -/
theorem Leaves.laid_again {base' made' : SysState} {listed' : List (List Bytes)}
    (leaves : Leaves kind start base made after sourceDir targetDir source target listed)
    (again : LaidOut after base' made' sourceDir targetDir source target listed') : made' = after := by
  have roots := leaves.laid.roots
  have sameBase : base' = after := by
    apply again.created.same
    rintro place ⟨rung, member, rfl⟩
    have isMade := leaves.completed.made (leaves.laid.grown.made roots.made)
    exact isMade.there roots.short roots.notRoot member
  subst sameBase
  apply again.grown.same
  rintro place ⟨names, more, rfl, isDirectory⟩
  have isTarget := again.roots.target_destination (SourceTree.there_of_directory isDirectory)
  rw [Files.isDirectory, leaves.source_same] at isDirectory
  have there := SourceTree.there_of_directory isDirectory
  have isMade := leaves.completed.made (leaves.laid.directories names isDirectory)
  have isLast : targetDir ++ Path.below names ∈ ladder (targetDir ++ Path.below names) :=
    List.mem_append_right _ (List.mem_singleton.mpr rfl)
  have found := isMade.there (Nat.lt_of_le_of_lt (roots.targetFits names more there) (by decide))
    (below_notRoot roots.nonempty more) isLast
  rw [isTarget] at found
  exact found

/-- No file has to be copied again. -/
theorem Leaves.completed_again {base' last : SysState} {listed' : List (List Bytes)}
    (leaves : Leaves kind start base made after sourceDir targetDir source target listed)
    (again : Leaves kind after base' after last sourceDir targetDir source target listed') :
    last.files = after.files ∧ last.opened = after.opened := by
  have current : ∀ task ∈ listed'.map (taskFor after sourceDir targetDir source target),
      ¬ kind.Outdated after task := by
    intro task member outdated
    rcases again.laid.mem_tasks.mp member with ⟨names, ⟨file, found⟩, rfl⟩
    have isFile := found
    rw [leaves.source_same] at isFile
    rw [Synchroniser.Outdated] at outdated
    dsimp only [taskFor] at outdated
    rw [fileAt_of_regular found, leaves.compared isFile] at outdated
    cases outdated
  constructor
  · funext place
    apply (again.completed.files place).resolve_right
    rintro ⟨task, member, outdated, _⟩
    exact current task member outdated
  · rcases again.completed.opens with ⟨more, same, outdated⟩
    cases more with
    | nil => rw [same, List.append_nil]
    | cons path more =>
        rcases outdated path List.mem_cons_self with ⟨task, member, isOutdated, _⟩
        exact absurd isOutdated (current task member)

theorem Synchroniser.Synchronised.types
    (synchronised : kind.Synchronised start after targetDir source target) :
    RightTypes after source target := by
  intro names node other there isOther
  rw [synchronised.sameSource] at there
  cases node with
  | directory size mtime =>
      have directory := (synchronised.directories names
        (Files.isDirectory_iff.mpr ⟨size, mtime, there⟩)).1
      rcases Files.isDirectory_iff.mp directory with ⟨otherSize, otherMtime, found⟩
      rw [found] at isOther
      cases isOther
      rfl
  | regular file =>
      rcases synchronised.files names file there with ⟨copy, found, _⟩
      rw [found] at isOther
      cases isOther
      rfl

/-- Nothing is in the way of a second run. -/
theorem Synchroniser.Synchronised.unhindered
    (synchronised : kind.Synchronised start after targetDir source target)
    (unhindered : Unhindered start targetDir source depth) (sameCwd : after.cwd = start.cwd)
    (isDirectory : after.files.isDirectory after.cwd = true) :
    Unhindered after targetDir source depth where
  cwd := isDirectory
  way := by
    rintro rung member ⟨file, isFile⟩
    have directory := isDirectory_of_resolve synchronised.leads.1 member
    rw [← sameCwd, Files.isDirectory, isFile] at directory
    cases directory
  finite := by
    simp only [synchronised.sameSource]
    exact unhindered.finite
  deep := by
    intro names there
    rw [synchronised.sameSource] at there
    exact unhindered.deep names there

/-- A second run comes to its end, too. -/
theorem Leaves.comesToEnd_again {config : SyncConfig}
    (leaves : Leaves kind start base made after config.sourceDir config.targetDir source target listed)
    (trees : SyncTrees start config.sourceDir config.targetDir source target)
    (outside : WayOutside start config.targetDir source target)
    (types : RightTypes start source target)
    (unhindered : Unhindered start config.targetDir source depth)
    (wellFormed : after.files.WellFormed) (threads : 0 < config.threadCount)
    (real : config.dryRun = false) : ComesToEnd config depth after := by
  have synchronised := leaves.synchronised trees outside types
  have sameCwd : after.cwd = start.cwd := by
    rw [leaves.completed.sameCwd, leaves.laid.grown.sameCwd, leaves.laid.created.sameCwd]
  have isDirectory : after.files.isDirectory after.cwd = true := by
    rw [leaves.completed.directories, sameCwd]
    exact leaves.laid.grown.isDirectory (leaves.laid.created.isDirectory unhindered.cwd)
  have treesAgain := leaves.trees trees wellFormed
  have unhinderedAgain := synchronised.unhindered unhindered sameCwd isDirectory
  have outsideAgain : WayOutside after config.targetDir source target := by
    rintro place ⟨rung, member, rfl⟩ absent
    have isMade := leaves.completed.made (leaves.laid.grown.made leaves.laid.roots.made)
    exact absurd absent (isMade.there leaves.laid.roots.short leaves.laid.roots.notRoot member)
  apply comesToEnd treesAgain real threads
  · exact ⟨wellFormed.root, isDirectory, unhinderedAgain.way⟩
  · exact fun _ created =>
      unhinderedAgain.passable treesAgain outsideAgain synchronised.types created

end Runs

/-- After a run of `perform_sync` another one changes no file and opens none for
writing. -/
theorem performSync_again {start mid after : SysState} {first second : SyncConfig}
    {source target : Place} {depth again : Nat} {code codeAgain : Int}
    (trees : SyncTrees start first.sourceDir first.targetDir source target)
    (sameSource : second.sourceDir = first.sourceDir)
    (sameTarget : second.targetDir = first.targetDir)
    (threads : 0 < first.threadCount ∧ 0 < second.threadCount)
    (real : first.dryRun = false ∧ second.dryRun = false)
    (run : PerformSync Answers first depth start code mid)
    (runAgain : PerformSync Answers second again mid codeAgain after) :
    codeAgain = 1 ∧ after.files = mid.files ∧ after.opened = mid.opened := by
  rcases run.leaves trees real.1 threads.1 with ⟨_, base, made, listed, leaves⟩
  have treesAgain := leaves.trees trees (run.wellFormed trees.wellFormed)
  rw [← sameSource, ← sameTarget] at leaves treesAgain
  rcases runAgain.leaves treesAgain real.2 threads.2 with
    ⟨isOne, baseAgain, madeAgain, listedAgain, leavesAgain⟩
  cases leaves.laid_again leavesAgain.laid
  exact ⟨isOne, leaves.completed_again leavesAgain⟩

/-- Every run of `perform_sync` returns 1, and it makes the target what it should be and
changes nothing else exactly if the way to the target is outside the trees. With nothing
in the way every run comes to its end. -/
theorem performSync_synchronises {start : SysState} {config : SyncConfig} {source target : Place}
    (trees : SyncTrees start config.sourceDir config.targetDir source target)
    (types : RightTypes start source target) (threads : 0 < config.threadCount)
    (real : config.dryRun = false) (depth : Nat) :
    (∀ code after, PerformSync Answers config depth start code after → code = 1 ∧
      (multiThread.Synchronised start after config.targetDir source target ↔
        WayOutside start config.targetDir source target)) ∧
    (WayOutside start config.targetDir source target →
      Unhindered start config.targetDir source depth → ComesToEnd config depth start) := by
  constructor
  · intro code after run
    rcases run.leaves trees real threads with ⟨isOne, base, made, listed, leaves⟩
    exact ⟨isOne, leaves.wayOutside, fun outside => leaves.synchronised trees outside types⟩
  · intro outside unhindered
    apply comesToEnd trees real threads
    · exact ⟨trees.wellFormed.root, unhindered.cwd, unhindered.way⟩
    · exact fun base created => unhindered.passable trees outside types created

/-! ## A file, and a target behind a missing directory -/

/-- A directory `s` with the file `a` and the directory `d`, and another file `a` in the
directory `t`. -/
def twoTrees : SysState where
  files := fun place =>
    if place = [[115], [97]] then some (.regular ⟨[120], 5, 420⟩)
    else if place = [[116], [97]] then some (.regular ⟨[121], 3, 420⟩)
    else if place = [] ∨ place = [[115]] ∨ place = [[116]] ∨ place = [[115], [100]] then
      some (.directory 0 0)
    else none
  cwd := []
  opened := []
  reported := []
  outcomes := []

theorem twoTrees_there {place : Place} (there : twoTrees.files place ≠ none) :
    place ∈ ([[], [[115]], [[116]], [[115], [97]], [[116], [97]], [[115], [100]]] : List Place) := by
  by_contra other
  simp only [List.mem_cons, List.not_mem_nil, or_false, not_or] at other
  simp [twoTrees, other] at there

theorem twoTrees_source {names : List Bytes} (there : twoTrees.files ([[115]] ++ names) ≠ none) :
    names ∈ ([[], [[97]], [[100]]] : List (List Bytes)) := by
  simpa using twoTrees_there there

theorem onTheWay_twoTrees {place : Place} (way : OnTheWay twoTrees [47, 116] place) :
    place = [[116]] := by
  rcases way with ⟨rung, member, rfl⟩
  have isLadder : ladder [47, 116] = [[47, 116]] := by decide
  rw [isLadder, List.mem_singleton] at member
  rw [member]
  decide

theorem twoTrees_syncTrees : SyncTrees twoTrees [47, 115] [47, 116] [[115]] [[116]] where
  wellFormed := Files.wellFormed_of_places (fun _ there => twoTrees_there there) rfl (by decide)
    (by decide)
  leads := ⟨by decide, by decide⟩
  nonempty := by decide
  short := by decide
  destination := by decide
  notAbove := by decide
  notBelow := by decide
  fits := by
    intro names more there
    have among : names ∈ ([[], [[97]], [[100]]] : List (List Bytes)) := by
      rcases there with isThere | way
      · exact twoTrees_source isThere
      · have impossible := onTheWay_twoTrees way
        simp at impossible
    simp only [List.mem_cons, List.not_mem_nil, or_false] at among
    rcases among with rfl | rfl | rfl
    · exact absurd rfl more
    · decide
    · decide

theorem twoTrees_types : RightTypes twoTrees [[115]] [[116]] := by
  intro names node other there isOther
  have isThere : twoTrees.files ([[115]] ++ names) ≠ none := by
    rw [there]
    exact Option.some_ne_none _
  have among := twoTrees_source isThere
  simp only [List.mem_cons, List.not_mem_nil, or_false] at among
  rcases among with rfl | rfl | rfl
  · cases there
    cases isOther
    rfl
  · cases there
    cases isOther
    rfl
  · cases isOther

theorem twoTrees_outside : WayOutside twoTrees [47, 116] [[115]] [[116]] := by
  intro place way absent
  rw [onTheWay_twoTrees way] at absent
  cases absent

theorem twoTrees_unhindered : Unhindered twoTrees [47, 116] [[115]] 2 where
  cwd := rfl
  way := by
    intro rung member
    have none : slashPrefixes [47, 116] = [] := by decide
    rw [none] at member
    cases member
  finite := (List.finite_toSet [[], [[97]], [[100]]]).subset fun _ there => twoTrees_source there
  deep := by
    intro names there
    have among := twoTrees_source there
    simp only [List.mem_cons, List.not_mem_nil, or_false] at among
    rcases among with rfl | rfl | rfl
    · decide
    · decide
    · decide

/-- `/s` to `/t`, with as many threads as are asked for. -/
def twoTreesConfig (threadCount : Nat) : SyncConfig := ⟨[47, 115], [47, 116], threadCount, false⟩

theorem performSync_synchronises_twoTrees :
    ∃ after, PerformSync Answers (twoTreesConfig 3) 2 twoTrees 1 after ∧
      multiThread.Synchronised twoTrees after [47, 116] [[115]] [[116]] := by
  have trees : SyncTrees twoTrees (twoTreesConfig 3).sourceDir (twoTreesConfig 3).targetDir
      [[115]] [[116]] := twoTrees_syncTrees
  have synchronises := performSync_synchronises trees twoTrees_types (by decide) rfl 2
  rcases (synchronises.2 twoTrees_outside twoTrees_unhindered).exists_run with ⟨code, after, run⟩
  rcases synchronises.1 code after run with ⟨rfl, iff⟩
  exact ⟨after, run, iff.mpr twoTrees_outside⟩

theorem performSync_again_twoTrees :
    ∃ mid after, PerformSync Answers (twoTreesConfig 3) 2 twoTrees 1 mid ∧
      PerformSync Answers (twoTreesConfig 5) 2 mid 1 after ∧
      after.files = mid.files ∧ after.opened = mid.opened := by
  have comes : ComesToEnd (twoTreesConfig 3) 2 twoTrees :=
    comesToEnd twoTrees_syncTrees rfl (by decide) ⟨rfl, rfl, twoTrees_unhindered.way⟩
      fun _ created => twoTrees_unhindered.passable twoTrees_syncTrees twoTrees_outside
        twoTrees_types created
  rcases comes.exists_run with ⟨code, mid, run⟩
  rcases run.leaves twoTrees_syncTrees rfl (by decide) with ⟨rfl, base, made, listed, leaves⟩
  have leavesAgain : Leaves multiThread twoTrees base made mid (twoTreesConfig 5).sourceDir
      (twoTreesConfig 5).targetDir [[115]] [[116]] listed := leaves
  have comesAgain : ComesToEnd (twoTreesConfig 5) 2 mid :=
    leavesAgain.comesToEnd_again twoTrees_syncTrees twoTrees_outside
      twoTrees_types twoTrees_unhindered (run.wellFormed twoTrees_syncTrees.wellFormed) (by decide) rfl
  rcases comesAgain.exists_run with ⟨codeAgain, after, runAgain⟩
  have trees : SyncTrees twoTrees (twoTreesConfig 3).sourceDir (twoTreesConfig 3).targetDir
      [[115]] [[116]] := twoTrees_syncTrees
  have sameSource : (twoTreesConfig 5).sourceDir = (twoTreesConfig 3).sourceDir := rfl
  rcases performSync_again trees sameSource rfl ⟨by decide, by decide⟩ ⟨rfl, rfl⟩ run runAgain with
    ⟨rfl, files, opened⟩
  exact ⟨mid, after, run, runAgain, files, opened⟩

end Apue.Sync
