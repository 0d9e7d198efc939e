import Apue.Sync.WorkerRuns

/-! # Whole runs of the multi-thread synchroniser

What `perform_sync` has come to when it returns: the directories of the target are made,
and every file of the source is settled.
-/

namespace Apue.Sync

open Apue.Foundation

/-- The directories that the path of the target leads through, and the last one. -/
def OnTheWay (start : SysState) (targetDir : Bytes) (place : Place) : Prop :=
  ∃ rung ∈ ladder targetDir, place = Path.destination start.cwd rung

/-- The source is a directory and the target is apart from it, and all joined paths fit,
also for a directory that is made on the way to the target. -/
structure SyncTrees (start : SysState) (sourceDir targetDir : Bytes) (source target : Place) : Prop where
  wellFormed : start.files.WellFormed
  leads : start.files.LeadsToDirectory start.cwd sourceDir source
  nonempty : targetDir ≠ []
  short : targetDir.length < MAX_PATH_LEN
  destination : Path.destination start.cwd targetDir = target
  notAbove : ¬ source <+: target
  notBelow : ¬ target <+: source
  fits : ∀ names, names ≠ [] →
    start.files (source ++ names) ≠ none ∨ OnTheWay start targetDir (source ++ names) →
    (sourceDir ++ Path.below names).length ≤ JOIN_LIMIT ∧
      (targetDir ++ Path.below names).length ≤ JOIN_LIMIT

/-- No entry of the target has another type than that of the source. -/
def RightTypes (start : SysState) (source target : Place) : Prop :=
  ∀ names node other, start.files (source ++ names) = some node →
    start.files (target ++ names) = some other →
    (nodeStat node).isDirectory = (nodeStat other).isDirectory

/-- No directory is missing on the way to the target that lies in the source, or in the
target where the source has none. -/
def WayOutside (start : SysState) (targetDir : Bytes) (source target : Place) : Prop :=
  ∀ place, OnTheWay start targetDir place → start.files place = none →
    (∀ names, place ≠ source ++ names) ∧
      ∀ names, place = target ++ names → start.files.isDirectory (source ++ names) = true

def fileAt (state : SysState) (place : Place) : RegularFile :=
  match state.files place with
  | some (.regular file) => file
  | _ => ⟨[], 0, 0⟩

/-- The task for a file of the source. -/
def taskFor (state : SysState) (sourceDir targetDir : Bytes) (source target : Place)
    (names : List Bytes) : Task where
  sourcePath := sourceDir ++ Path.below names
  targetPath := targetDir ++ Path.below names
  place := source ++ names
  target := target ++ names
  file := fileAt state (source ++ names)

/-- What is there before the workers start. -/
structure LaidOut (start base made : SysState) (sourceDir targetDir : Bytes) (source target : Place)
    (listed : List (List Bytes)) : Prop where
  created : Grown (OnTheWay start targetDir) start base
  roots : Roots base sourceDir targetDir source target
  grown : Grown (BelowTarget base source target) base made
  directories : ∀ names, base.files.isDirectory (source ++ names) = true →
    Made (targetDir ++ Path.below names) made
  lists : ListsFiles made source [] listed

section Trees

variable {start base made state after : SysState} {sourceDir targetDir : Bytes}
  {source target place : Place} {names : List Bytes} {listed : List (List Bytes)}
  {file : RegularFile} {node : Node} {total : Prop}

theorem SyncTrees.apart (trees : SyncTrees start sourceDir targetDir source target)
    (names others : List Bytes) : source ++ names ≠ target ++ others := by
  intro same
  rcases List.prefix_or_prefix_of_prefix (List.prefix_append source names)
    (same ▸ List.prefix_append target others) with above | below
  · exact trees.notAbove above
  · exact trees.notBelow below

theorem SyncTrees.notRoot (trees : SyncTrees start sourceDir targetDir source target) :
    targetDir ≠ [Path.SLASH] := by
  rintro rfl
  have isRoot : target = [] := by
    rw [← trees.destination]
    rfl
  exact trees.notBelow (isRoot ▸ List.nil_prefix)

/-- The trees when the directory of the target is made. -/
theorem SyncTrees.roots (trees : SyncTrees start sourceDir targetDir source target)
    (created : Grown (OnTheWay start targetDir) start base) (wellFormed : base.files.WellFormed)
    (isMade : Made targetDir base) : Roots base sourceDir targetDir source target := by
  have fits : ∀ names, names ≠ [] → base.files (source ++ names) ≠ none →
      (sourceDir ++ Path.below names).length ≤ JOIN_LIMIT ∧
        (targetDir ++ Path.below names).length ≤ JOIN_LIMIT := by
    intro names more there
    apply trees.fits names more
    rcases created.files (source ++ names) with same | ⟨_, way, _⟩
    · rw [same] at there
      exact Or.inl there
    · exact Or.inr way
  exact
    { tree := .of_wellFormed wellFormed
        ⟨created.resolve trees.leads.1, created.isDirectory trees.leads.2⟩
        fun names more there => (fits names more there).1
      targetFits := fun names more there => (fits names more there).2
      apart := trees.apart
      nonempty := trees.nonempty
      short := trees.short
      destination := by
        rw [created.sameCwd]
        exact trees.destination
      made := isMade }

theorem fileAt_of_regular (found : state.files place = some (.regular file)) :
    fileAt state place = file := by
  rw [fileAt, found]

/-- What is made below the target leaves the source alone. -/
theorem LaidOut.tree (laid : LaidOut start base made sourceDir targetDir source target listed) :
    SourceTree made sourceDir source :=
  laid.roots.tree.grown laid.grown laid.roots.outside

theorem LaidOut.source_same
    (laid : LaidOut start base made sourceDir targetDir source target listed) (names : List Bytes) :
    made.files (source ++ names) = base.files (source ++ names) :=
  laid.grown.source_same laid.roots.outside names

theorem LaidOut.destination (laid : LaidOut start base made sourceDir targetDir source target listed)
    (there : made.files (source ++ names) ≠ none) :
    Path.destination made.cwd (targetDir ++ Path.below names) = target ++ names := by
  rw [laid.grown.sameCwd]
  apply laid.roots.target_destination
  rw [← laid.source_same]
  exact there

/-- The task for a file that is listed. -/
theorem LaidOut.mem_tasks (laid : LaidOut start base made sourceDir targetDir source target listed)
    {task : Task} :
    task ∈ listed.map (taskFor made sourceDir targetDir source target) ↔
      ∃ names, RegularAt made source names ∧
        taskFor made sourceDir targetDir source target names = task := by
  rw [List.mem_map]
  simp only [laid.lists.mem_iff, List.nil_prefix, true_and]

/-- A file has a name in a directory that is made. -/
theorem LaidOut.parent (laid : LaidOut start base made sourceDir targetDir source target listed)
    (isFile : RegularAt made source names) : ∃ front name, names = front ++ [name] ∧
      base.files.isDirectory (source ++ front) = true ∧ Path.SLASH ∉ name := by
  have short := laid.tree.short isFile
  rcases List.eq_nil_or_concat names with none | ⟨front, name, isConcat⟩
  · exact absurd none short.1
  rw [List.concat_eq_append] at isConcat
  subst isConcat
  refine ⟨front, name, rfl, ?_, (laid.tree.proper _ short.2 name (by simp)).noSlash⟩
  have there := short.2
  rw [laid.source_same] at there
  exact laid.roots.tree.above front [name] (List.cons_ne_nil _ _) there

theorem LaidOut.ready (laid : LaidOut start base made sourceDir targetDir source target listed)
    (isFile : RegularAt made source names) :
    Ready made (taskFor made sourceDir targetDir source target names) where
  reads := by
    rcases isFile with ⟨file, found⟩
    dsimp only [taskFor]
    rw [fileAt_of_regular found]
    exact laid.tree.found names _ found
  destination := laid.destination (laid.tree.short isFile).2
  different := laid.roots.apart names names
  parent := by
    rcases laid.parent isFile with ⟨front, name, rfl, isDirectory, noSlash⟩
    refine ⟨targetDir ++ Path.below front, ?_,
      List.append_ne_nil_of_left_ne_nil laid.roots.nonempty _, laid.directories front isDirectory⟩
    dsimp only [taskFor]
    rw [Path.below_concat, ← List.append_assoc]
    exact beforeLastSlash_join noSlash

theorem LaidOut.workload (laid : LaidOut start base made sourceDir targetDir source target listed) :
    Workload made (listed.map (taskFor made sourceDir targetDir source target)) where
  ready := by
    intro task member
    rcases laid.mem_tasks.mp member with ⟨names, isFile, rfl⟩
    exact laid.ready isFile
  targets := by
    rw [List.map_map]
    apply laid.lists.nodup.map
    intro first second same
    exact List.append_cancel_left same
  sources := by
    intro task member other isOther
    rcases laid.mem_tasks.mp member with ⟨names, _, rfl⟩
    rcases laid.mem_tasks.mp isOther with ⟨others, _, rfl⟩
    exact laid.roots.apart names others

/-- The entries of the list are those of the tasks. -/
theorem LaidOut.infos (laid : LaidOut start base made sourceDir targetDir source target listed) :
    listed.map (listedFile made sourceDir targetDir source) =
      (listed.map (taskFor made sourceDir targetDir source target)).map Task.info := by
  rw [List.map_map]
  apply List.map_congr_left
  intro names member
  rcases ((laid.lists.mem_iff names).mp member).2 with ⟨file, found⟩
  rw [Function.comp, listedFile, Task.info]
  dsimp only [taskFor]
  rw [fileAt_of_regular found, fileSize, found]
  rfl

/-- What is made leads to a directory, unless a regular file is there. -/
theorem Made.leads {path : Bytes} (isMade : Made path state)
    (root : state.files.isDirectory [] = true) (nonempty : path ≠ [])
    (short : path.length < MAX_PATH_LEN) (notFile : ¬ NamesFile state path) :
    state.files.LeadsToDirectory state.cwd path (Path.destination state.cwd path) := by
  have found : trimSlashes path ≠ [] → (state.lookup (trimSlashes path)).isSome = true := by
    intro notSlashes
    have last := isMade _ (by
      rw [rungs_of_short short]
      exact List.mem_append_right _ (List.mem_singleton.mpr rfl))
    have trimmed : trimSlashes (if path.getLast? = some Path.SLASH then path.dropLast else path) =
        trimSlashes path := by
      rcases slash_taken_off path with same | same
      · rw [same]
      · generalize (if path.getLast? = some Path.SLASH then path.dropLast else path) = tmp at same
        rw [same, trimSlashes_slash]
    rw [mkdirPath, trimmed, if_neg notSlashes] at last
    exact last
  rcases directory_of_found root nonempty (Grown.refl (fun _ => True) state)
    (fun instead => notFile instead.isFile) found with ⟨place, leads⟩
  have same := Files.resolve_eq leads.1
  rw [← same]
  exact leads

theorem Grown.notFile {ways : Place → Prop} {path : Bytes} (grown : Grown ways base after)
    (notFile : ¬ NamesFile base path) : ¬ NamesFile after path := by
  rintro ⟨file, there⟩
  rw [grown.sameCwd] at there
  rcases grown.files (Path.destination base.cwd path) with same | ⟨_, _, directory⟩
  · exact notFile ⟨file, same ▸ there⟩
  · rw [Files.isDirectory, there] at directory
    cases directory

/-- Every directory of the source is one in the target. -/
theorem LaidOut.leads (laid : LaidOut start base made sourceDir targetDir source target listed)
    (root : base.files.isDirectory [] = true) (types : RightTypes base source target)
    (isDirectory : base.files.isDirectory (source ++ names) = true) :
    made.files.LeadsToDirectory made.cwd (targetDir ++ Path.below names) (target ++ names) := by
  have there := SourceTree.there_of_directory isDirectory
  have isTarget := laid.roots.target_destination there
  have leads := (laid.directories names isDirectory).leads (laid.grown.isDirectory root)
    (List.append_ne_nil_of_left_ne_nil laid.roots.nonempty _) (by
      rcases eq_or_ne names [] with rfl | more
      · rw [Path.below_nil, List.append_nil]
        exact laid.roots.short
      · exact Nat.lt_of_le_of_lt (laid.roots.targetFits names more there) (by decide)) (by
      apply laid.grown.notFile
      rintro ⟨file, isFile⟩
      rw [isTarget] at isFile
      rcases Files.isDirectory_iff.mp isDirectory with ⟨size, mtime, isSource⟩
      exact absurd (types names _ _ isSource isFile) (Bool.noConfusion))
  rw [laid.grown.sameCwd, isTarget] at leads
  rw [laid.grown.sameCwd]
  exact leads

/-- No directory is in place of a file. -/
theorem LaidOut.target_notDirectory
    (laid : LaidOut start base made sourceDir targetDir source target listed)
    (types : RightTypes base source target) (isFile : RegularAt made source names) :
    made.files.isDirectory (target ++ names) = false := by
  rcases isFile with ⟨file, found⟩
  rw [laid.source_same] at found
  rw [← Bool.not_eq_true]
  intro isDirectory
  rcases laid.grown.files (target ++ names) with same | ⟨_, ⟨others, _, isOther, directory⟩, _⟩
  · rcases Files.isDirectory_iff.mp isDirectory with ⟨size, mtime, there⟩
    rw [same] at there
    exact absurd (types names _ _ found there) Bool.noConfusion
  · cases List.append_cancel_left isOther
    rw [Files.isDirectory, found] at directory
    cases directory

theorem LaidOut.canBeOpened
    (laid : LaidOut start base made sourceDir targetDir source target listed)
    (root : base.files.isDirectory [] = true) (types : RightTypes base source target)
    (isFile : RegularAt made source names) :
    CanBeOpened made (taskFor made sourceDir targetDir source target names) := by
  refine ⟨?_, laid.target_notDirectory types isFile⟩
  have there := (laid.tree.short isFile).2
  rcases laid.parent isFile with ⟨front, name, rfl, isDirectory, noSlash⟩
  have leads := laid.leads root types isDirectory
  dsimp only [taskFor]
  rw [Path.below_concat, ← List.append_assoc, Files.resolve_name leads.1 leads.2 noSlash,
    Path.step_proper (laid.tree.proper _ there name (by simp)), List.append_assoc]

/-! ## Up to the workers -/

/-- Nothing is in the way of a run on these trees. -/
structure Passable (base : SysState) (targetDir : Bytes) (source target : Place) (depth : Nat) :
    Prop where
  free : DirectoriesFree base source targetDir
  types : RightTypes base source target
  finite : {names | base.files (source ++ names) ≠ none}.Finite
  deep : ∀ names, base.files (source ++ names) ≠ none → names.length < depth

/-- What `perform_sync` comes to before it starts threads. -/
structure IsPrepared (start made : SysState) (sourceDir targetDir : Bytes) (source target : Place)
    (base : SysState) (listed : List (List Bytes)) (prepared : Prepared) : Prop where
  laid : LaidOut start base made sourceDir targetDir source target listed
  result : prepared = .returned 1 ∧ listed = [] ∨ ∃ list, prepared = .work list ∧
    list.files = (listed.map (taskFor made sourceDir targetDir source target)).map Task.info ∧
    list.currentIndex = 0

theorem prepareSync_throughout (total : Prop) {config : SyncConfig} (depth : Nat)
    (trees : SyncTrees start config.sourceDir config.targetDir source target)
    (real : config.dryRun = false) (way : total → WayFree start config.targetDir)
    (passable : total → ∀ base, Grown (OnTheWay start config.targetDir) start base →
      Passable base config.targetDir source target depth) :
    Throughout total (fun prepared made => ∃ base listed,
        IsPrepared start made config.sourceDir config.targetDir source target base listed prepared ∧
        (total → Passable base config.targetDir source target depth))
      (prepareSync config depth) start := by
  rw [prepareSync]
  apply Program.Always.call fun _ => ⟨_, _, .stat _ start⟩
  intro response after answered
  rcases answers_stat answered with ⟨rfl, rfl⟩
  rcases Files.isDirectory_iff.mp trees.leads.2 with ⟨size, mtime, there⟩
  rw [statOf_of_lookup (Files.lookup_eq_some.mpr ⟨trees.leads.1, there⟩)]
  dsimp only [nodeStat]
  rw [real]
  simp only [Bool.not_true, Bool.false_eq_true, if_false, Bool.not_false, if_true]
  apply Program.Always.bind
  have created : Throughout total (fun result last => result = true ∧
      Grown (OnTheWay after config.targetDir) after last ∧ Made config.targetDir last)
      (createDirectory config.targetDir) after :=
    createDirectory_throughout trees.nonempty trees.short trees.notRoot
      (fun rung member => ⟨rung, member, rfl⟩) way
  apply (always_wellFormed created trees.wellFormed).mono
  rintro _ base ⟨⟨rfl, grown, isMade⟩, wellFormed⟩
  have roots := trees.roots grown wellFormed isMade
  simp only [Bool.not_true, Bool.false_eq_true, if_false]
  apply Program.Always.bind
  apply (syncDirectoryStructure_throughout roots (fun isTotal => (passable isTotal base grown).free)
    (fun isTotal => (passable isTotal base grown).finite)
    fun isTotal => (passable isTotal base grown).deep).mono
  rintro _ made ⟨grownInside, directories⟩
  have same := grownInside.source_same roots.outside
  have traversed : Throughout total (fun list after => after = made ∧ ∃ listed,
      ListsFiles made source [] listed ∧
      list.files = listed.map (listedFile made config.sourceDir config.targetDir source) ∧
      list.currentIndex = 0)
      (traverseDirectory depth config.sourceDir config.targetDir initFileList) made := by
    apply traverseDirectory_throughout (roots.tree.grown grownInside roots.outside)
    · intro names more there
      rw [same] at there
      exact roots.targetFits names more there
    · intro isTotal
      simp only [same]
      exact (passable isTotal base grown).finite
    · intro isTotal names there
      rw [same] at there
      exact (passable isTotal base grown).deep names there
  apply Program.Always.bind
  apply traversed.mono
  rintro list after ⟨rfl, listed, lists, files, index⟩
  have laid : LaidOut _ base after config.sourceDir config.targetDir source target listed :=
    ⟨grown, roots, grownInside, directories, lists⟩
  split
  · rename_i empty
    rw [files, List.length_map, List.length_eq_zero_iff] at empty
    exact ⟨base, listed, ⟨laid, Or.inl ⟨rfl, empty⟩⟩, fun isTotal => passable isTotal base grown⟩
  · refine ⟨base, listed, ⟨laid, Or.inr ⟨list, rfl, ?_, index⟩⟩, fun isTotal => passable isTotal base grown⟩
    rw [files, laid.infos]

/-! ## With the workers -/

/-- The files are settled, and nothing else has happened. -/
structure Completed (kind : Synchroniser) (made : SysState) (tasks : List Task) (after : SysState) :
    Prop extends Changes (kind.Outdated made) (· ∈ tasks) made after where
  settled : ∀ task ∈ tasks, kind.Settled made task after

theorem Completed.nothing (kind : Synchroniser) (made : SysState) : Completed kind made [] made where
  toChanges := .refl _ _ made
  settled := fun _ member => absurd member List.not_mem_nil

theorem AllSettled.completed {Thread : Type} {tasks : List Task}
    {first last : WorkerState Thread SysState} (all : AllSettled tasks first last) :
    Completed multiThread first.system tasks last.system where
  toSteady := all.moved.toSteady
  settled := all.settled
  files := by
    intro place
    apply (all.moved.files place).imp_right
    rintro ⟨_, index, task, _, _, isTask, changed⟩
    exact ⟨task, List.mem_of_getElem? isTask, changed⟩
  opens := all.moved.opens

/-- What is left of a run of `perform_sync`. -/
structure Leaves (kind : Synchroniser) (start base made after : SysState)
    (sourceDir targetDir : Bytes) (source target : Place) (listed : List (List Bytes)) : Prop where
  laid : LaidOut start base made sourceDir targetDir source target listed
  completed : Completed kind made (listed.map (taskFor made sourceDir targetDir source target)) after

/-- Whatever the schedule of the workers is, a run returns 1 and has settled every file. -/
theorem PerformSync.leaves {config : SyncConfig} {depth : Nat} {code : Int}
    (trees : SyncTrees start config.sourceDir config.targetDir source target)
    (real : config.dryRun = false) (threads : 0 < config.threadCount)
    (run : PerformSync Answers config depth start code after) :
    code = 1 ∧ ∃ base made listed,
      Leaves multiThread start base made after config.sourceDir config.targetDir source target listed := by
  have always := prepareSync_throughout False depth trees real
    (fun impossible => impossible.elim) fun impossible => impossible.elim
  cases run with
  | returned prepared =>
      rcases always.result prepared with ⟨base, listed, ⟨laid, ended⟩, _⟩
      rcases ended with ⟨same, rfl⟩ | ⟨list, impossible, _⟩
      · cases same
        exact ⟨rfl, base, after, [], laid, .nothing multiThread after⟩
      · cases impossible
  | @worked list made pool prepared reached joined =>
      rcases always.result prepared with ⟨base, listed, ⟨laid, ended⟩, _⟩
      rcases ended with ⟨impossible, _⟩ | ⟨other, same, files, index⟩
      · cases impossible
      · cases same
        rw [real] at reached
        have : Nonempty (Fin config.threadCount) := ⟨⟨0, threads⟩⟩
        have all := workers_settle files index laid.workload reached joined
        have noErrors : pool.state.errors = 0 := all.moved.errors
        rw [noErrors]
        exact ⟨rfl, base, made, listed, laid, all.completed⟩

theorem worker_wellFormed {Thread : Type} {thread : Thread} {command : WorkerCommand SysCall}
    {response : WorkerResponse SysResponse command} {first last : WorkerState Thread SysState}
    (stepped : WorkerStep Answers thread command first response last)
    (wellFormed : first.system.files.WellFormed) : last.system.files.WellFormed := by
  cases stepped with
  | system performed => exact performed.wellFormed wellFormed
  | _ => exact wellFormed

/-- A run leaves a tree. -/
theorem PerformSync.wellFormed {config : SyncConfig} {depth : Nat} {code : Int}
    (run : PerformSync Answers config depth start code after) (wellFormed : start.files.WellFormed) :
    after.files.WellFormed := by
  cases run with
  | returned prepared => exact runs_wellFormed prepared wellFormed
  | worked prepared reached joined =>
      clear joined
      induction reached with
      | refl => exact runs_wellFormed prepared wellFormed
      | tail _ stepped hypothesis =>
          cases stepped with
          | take thread waiting worked => exact worker_wellFormed worked hypothesis

/-- Every run of `perform_sync` comes to its end: every call of the part up to the workers
has an answer, and so have the calls of the workers under every schedule. -/
def ComesToEnd (config : SyncConfig) (depth : Nat) (start : SysState) : Prop :=
  Throughout True (fun prepared made => ∀ list, prepared = .work list →
    (startWorkers (Fin config.threadCount) syncFile config.dryRun list made).Returns
      (WorkerStep Answers) fun _ => True) (prepareSync config depth) start

theorem ComesToEnd.exists_run {config : SyncConfig} {depth : Nat}
    (comes : ComesToEnd config depth start) :
    ∃ code after, PerformSync Answers config depth start code after := by
  rcases Program.Always.exists_run (fun _ _ answered => answered trivial) comes with
    ⟨prepared, made, run, returns⟩
  cases prepared with
  | returned code => exact ⟨code, made, .returned run⟩
  | work list =>
      rcases (returns list rfl).exists_run with ⟨last, reached, ended⟩
      exact ⟨_, _, .worked run reached fun thread => (ended thread).choose_spec⟩

theorem comesToEnd {config : SyncConfig} {depth : Nat}
    (trees : SyncTrees start config.sourceDir config.targetDir source target)
    (real : config.dryRun = false) (threads : 0 < config.threadCount)
    (way : WayFree start config.targetDir)
    (passable : ∀ base, Grown (OnTheWay start config.targetDir) start base →
      Passable base config.targetDir source target depth) :
    ComesToEnd config depth start := by
  apply (prepareSync_throughout True depth trees real (fun _ => way) fun _ => passable).mono
  rintro prepared made ⟨base, listed, ⟨laid, ended⟩, passes⟩ list rfl
  rcases ended with ⟨impossible, _⟩ | ⟨other, same, files, index⟩
  · cases impossible
  · cases same
    rw [real]
    have : Nonempty (Fin config.threadCount) := ⟨⟨0, threads⟩⟩
    have possible : ∀ task ∈ listed.map (taskFor made config.sourceDir config.targetDir source target),
        CanBeOpened made task := by
      intro task member
      rcases laid.mem_tasks.mp member with ⟨names, isFile, rfl⟩
      exact laid.canBeOpened (passes trivial).free.root (passes trivial).types isFile
    have returns := @workers_return (Fin config.threadCount) _ _ _ _ _ _ files index laid.workload possible
    exact ⟨returns.ends, returns.goesOn, fun _ _ _ => trivial⟩

end Trees

end Apue.Sync
