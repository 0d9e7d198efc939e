import Apue.Sync.SynchronisedTrees

/-! # What a dry run announces

A dry run of `perform_sync` compares the files before there are any directories. It
names the files that a real run opens if it finds at their places what the real run
will find there.
-/

namespace Apue.Sync

open Apue.Foundation

/-- The state in which some files have been named. -/
def SysState.naming (state : SysState) (named : List (Bytes × Bytes)) : SysState :=
  { state with reported := state.reported ++ named }

/-- The tasks whose files a dry run names. -/
def toReport (state : SysState) (tasks : List Task) : List (Bytes × Bytes) :=
  (tasks.filter fun task => !multiThread.comparison task.file (state.lookup task.targetPath)).map fun task =>
    (task.sourcePath, task.targetPath)

/-- What is at the place of a file counts as the same. -/
def Synchroniser.SameThere (kind : Synchroniser) (start : SysState) (target : Place)
    (names : List Bytes) (file : RegularFile) : Prop :=
  ∃ node, start.files (target ++ names) = some node ∧
    kind.comparison file (some (target ++ names, node)) = true

section Reports

variable {start : SysState} {total : Prop}

/-- A program that nobody disturbs. -/
theorem throughout_of_follows {Value : Type} {post : Value → SysState → Prop} {program : Sys Value}
    (follows : (Conduct.alone SysState fun _ => total).Follows Answers post program start) :
    Throughout total post program start :=
  follows.always fun _ => rfl

/-- The loop of a dry run names the files that are not the same, in the order of the
list. -/
theorem reportFiles_throughout {tasks : List Task}
    (reads : ∀ task ∈ tasks, start.lookup task.sourcePath = some (task.place, .regular task.file))
    (named : List (Bytes × Bytes)) :
    Throughout total (fun _ after => after = start.naming (named ++ toReport start tasks))
      (reportFiles (tasks.map Task.info)) (start.naming named) := by
  induction tasks generalizing named with
  | nil =>
      rw [toReport, List.filter_nil, List.map_nil, List.append_nil]
      rfl
  | cons task tasks hypothesis =>
      have rest := hypothesis fun other member => reads other (List.mem_cons_of_mem _ member)
      have looks : Looks (Conduct.alone SysState fun _ => total) fun other => other = start.naming named :=
        Looks.alone (fun _ => trivial) _
      have seesSource : ∀ state, state = start.naming named →
          state.lookup task.sourcePath = some (task.place, .regular task.file) := by
        rintro state rfl
        exact reads task List.mem_cons_self
      have seesTarget : ∀ state, state = start.naming named →
          state.lookup task.targetPath = start.lookup task.targetPath := by
        rintro state rfl
        rfl
      have compared : Throughout total (fun result after =>
          result = multiThread.comparison task.file (start.lookup task.targetPath) ∧
            after = start.naming named)
          (compareFiles task.sourcePath task.targetPath) (start.naming named) :=
        throughout_of_follows (compareFiles_follows looks seesSource seesTarget rfl)
      rw [List.map_cons, reportFiles]
      apply Program.Always.bind
      apply compared.mono
      rintro _ _ ⟨rfl, rfl⟩
      rw [toReport, List.filter_cons]
      dsimp only [Task.info]
      split
      · apply Program.Always.call fun _ => ⟨_, _, .report _ _ _⟩
        intro _ after answered
        cases answered
        have continued := rest (named ++ [(task.sourcePath, task.targetPath)])
        rw [List.append_assoc, List.singleton_append] at continued
        rw [List.map_cons]
        simp only [SysState.naming, List.append_assoc] at continued ⊢
        exact continued
      · exact rest named

end Reports

section Runs

variable {start base made after : SysState} {sourceDir targetDir : Bytes} {source target : Place}
  {names : List Bytes} {listed : List (List Bytes)} {file : RegularFile} {total : Prop}
  {kind : Synchroniser}

theorem SyncTrees.sourceTree (trees : SyncTrees start sourceDir targetDir source target) :
    SourceTree start sourceDir source :=
  .of_wellFormed trees.wellFormed trees.leads fun names more there =>
    (trees.fits names more (Or.inl there)).1

/-- What a dry run leaves. -/
structure Announces (start : SysState) (sourceDir targetDir : Bytes) (source target : Place)
    (listed : List (List Bytes)) (after : SysState) : Prop where
  lists : ListsFiles start source [] listed
  names : after = start.naming
    (toReport start (listed.map (taskFor start sourceDir targetDir source target)))

theorem prepareSync_announces (total : Prop) {config : SyncConfig} (depth : Nat)
    (trees : SyncTrees start config.sourceDir config.targetDir source target)
    (dry : config.dryRun = true)
    (finite : total → {names | start.files (source ++ names) ≠ none}.Finite)
    (deep : total → ∀ names, start.files (source ++ names) ≠ none → names.length < depth) :
    Throughout total (fun prepared after => prepared = .returned 1 ∧ ∃ listed,
        Announces start config.sourceDir config.targetDir source target listed after)
      (prepareSync config depth) start := by
  rw [prepareSync]
  apply Program.Always.call fun _ => ⟨_, _, .stat _ start⟩
  intro response after answered
  rcases answers_stat answered with ⟨rfl, rfl⟩
  rcases Files.isDirectory_iff.mp trees.leads.2 with ⟨size, mtime, there⟩
  rw [statOf_of_lookup (Files.lookup_eq_some.mpr ⟨trees.leads.1, there⟩)]
  dsimp only [nodeStat]
  rw [dry]
  simp only [Bool.not_true, Bool.false_eq_true, if_false, if_true]
  apply Program.Always.bind
  apply (traverseDirectory_throughout trees.sourceTree
    (fun names more there => (trees.fits names more (Or.inl there)).2) finite deep).mono
  rintro list after ⟨rfl, listed, lists, files, _⟩
  have infos : list.files =
      (listed.map (taskFor after config.sourceDir config.targetDir source target)).map Task.info := by
    rw [files, List.map_map]
    apply List.map_congr_left
    intro names member
    rcases ((lists.mem_iff names).mp member).2 with ⟨file, found⟩
    rw [Function.comp, listedFile, Task.info]
    dsimp only [taskFor]
    rw [fileAt_of_regular found, fileSize, found]
    rfl
  split
  · rename_i empty
    rw [files, List.length_map, List.length_eq_zero_iff] at empty
    subst empty
    refine ⟨rfl, [], lists, ?_⟩
    change after = { after with reported := after.reported ++ [] }
    rw [List.append_nil]
  · apply Program.Always.bind
    rw [infos]
    have initial : after = after.naming [] := by
      rw [SysState.naming, List.append_nil]
    have reads : ∀ task ∈ listed.map (taskFor after config.sourceDir config.targetDir source target),
        after.lookup task.sourcePath = some (task.place, .regular task.file) := by
      intro task member
      rcases List.mem_map.mp member with ⟨names, isListed, rfl⟩
      rcases ((lists.mem_iff names).mp isListed).2 with ⟨file, found⟩
      dsimp only [taskFor]
      rw [fileAt_of_regular found]
      exact trees.sourceTree.found names _ found
    have reported := @reportFiles_throughout after total _ reads []
    rw [← initial] at reported
    apply reported.mono
    rintro _ last rfl
    exact ⟨rfl, listed, lists, rfl⟩

/-- A dry run changes nothing and returns 1. -/
theorem PerformSync.announces {config : SyncConfig} {depth : Nat} {code : Int}
    (trees : SyncTrees start config.sourceDir config.targetDir source target)
    (dry : config.dryRun = true) (run : PerformSync Answers config depth start code after) :
    code = 1 ∧ ∃ listed,
      Announces start config.sourceDir config.targetDir source target listed after := by
  have always := prepareSync_announces False depth trees dry
    (fun impossible => impossible.elim) fun impossible => impossible.elim
  cases run with
  | returned prepared =>
      rcases always.result prepared with ⟨same, announced⟩
      cases same
      exact ⟨rfl, announced⟩
  | worked prepared reached joined =>
      rcases always.result prepared with ⟨impossible, _⟩
      cases impossible

/-! ## The comparisons of the two runs -/

theorem SyncTrees.target_destination (trees : SyncTrees start sourceDir targetDir source target)
    (there : start.files (source ++ names) ≠ none) :
    Path.destination start.cwd (targetDir ++ Path.below names) = target ++ names := by
  rw [Path.destination_below trees.nonempty (trees.wellFormed.names_proper there), trees.destination]

theorem SyncTrees.file_there (trees : SyncTrees start sourceDir targetDir source target)
    (isFile : start.files (source ++ names) = some (.regular file)) :
    names ≠ [] ∧ start.files (source ++ names) ≠ none :=
  trees.sourceTree.short ⟨file, isFile⟩

/-- At the start the file is found where the path of the target leads. -/
theorem SyncTrees.comparison_start (trees : SyncTrees start sourceDir targetDir source target)
    (isFile : start.files (source ++ names) = some (.regular file)) :
    kind.comparison file (start.lookup (targetDir ++ Path.below names)) = true ↔
      start.files.resolve start.cwd targetDir = some target ∧ kind.SameThere start target names file := by
  have there := (trees.file_there isFile).2
  constructor
  · intro same
    rcases Synchroniser.exists_of_comparison same with ⟨node, found, isSame⟩
    rw [trees.target_destination there] at found isSame
    refine ⟨?_, node, found, isSame⟩
    cases looked : start.lookup (targetDir ++ Path.below names) with
    | none =>
        rw [looked, kind.missing] at same
        cases same
    | some entry =>
        have resolved := (Files.lookup_eq_some.mp looked).1
        rcases List.exists_cons_of_ne_nil (trees.file_there isFile).1 with ⟨name, others, rfl⟩
        have isBelow : Path.below (name :: others) = Path.SLASH :: (name ++ Path.below others) := rfl
        rw [isBelow] at resolved
        have leads := (Files.front_of_resolve trees.nonempty resolved).1
        rw [trees.destination] at leads
        exact leads
  · rintro ⟨resolved, node, found, isSame⟩
    have isThere : start.files (target ++ names) ≠ none := by
      rw [found]
      exact Option.some_ne_none _
    have looked : start.lookup (targetDir ++ Path.below names) = some (target ++ names, node) :=
      Files.lookup_eq_some.mpr ⟨Files.resolve_below trees.wellFormed resolved isThere, found⟩
    rw [looked]
    exact isSame

/-- A worker finds the file where it was at the start. -/
theorem Leaves.outdated_iff
    (leaves : Leaves kind start base made after sourceDir targetDir source target listed)
    (trees : SyncTrees start sourceDir targetDir source target)
    (outside : WayOutside start targetDir source target) (types : RightTypes start source target)
    (isFile : start.files (source ++ names) = some (.regular file)) :
    kind.Outdated made (taskFor made sourceDir targetDir source target names) ↔
      ¬ kind.SameThere start target names file := by
  have created := leaves.laid.created
  have found : made.files (source ++ names) = some (.regular file) := by
    rw [leaves.laid.source_same, outside.source_same created]
    exact isFile
  have isTaskFile := fileAt_of_regular found
  have unchanged := leaves.laid.target_same outside (not_isDirectory_of_regular isFile)
  constructor
  · rintro outdated ⟨node, there, isSame⟩
    have opens := leaves.laid.canBeOpened (created.isDirectory trees.wellFormed.root)
      (types.created outside created) ⟨file, found⟩
    have looked := Files.lookup_eq_some.mpr ⟨opens.resolves, unchanged.trans there⟩
    rw [Synchroniser.Outdated, SysState.lookup, looked] at outdated
    dsimp only [taskFor] at outdated
    rw [isTaskFile, isSame] at outdated
    cases outdated
  · intro differs
    rw [Synchroniser.Outdated, ← Bool.not_eq_true]
    dsimp only [taskFor]
    rw [isTaskFile]
    intro same
    rcases Synchroniser.exists_of_comparison same with ⟨node, there, isSame⟩
    have isTarget := leaves.laid.destination (leaves.laid.tree.short ⟨file, found⟩).2
    rw [isTarget, unchanged] at there
    rw [isTarget] at isSame
    exact differs ⟨node, there, isSame⟩

/-- What a real run opens for writing. -/
theorem Leaves.mem_opened
    (leaves : Leaves kind start base made after sourceDir targetDir source target listed)
    (trees : SyncTrees start sourceDir targetDir source target)
    (outside : WayOutside start targetDir source target) (types : RightTypes start source target)
    (fresh : start.opened = []) {path : Bytes} :
    path ∈ after.opened ↔ ∃ names file, start.files (source ++ names) = some (.regular file) ∧
      ¬ kind.SameThere start target names file ∧ path = targetDir ++ Path.below names := by
  have created := leaves.laid.created
  have sameSource : ∀ names, made.files (source ++ names) = start.files (source ++ names) := by
    intro names
    rw [leaves.laid.source_same, outside.source_same created]
  constructor
  · intro opened
    rcases leaves.completed.opens with ⟨more, isMore, tasks⟩
    have none : made.opened = [] := by
      rw [leaves.laid.grown.others, created.others]
      exact fresh
    rw [isMore, none, List.nil_append] at opened
    rcases tasks path opened with ⟨task, member, outdated, isPath⟩
    rcases leaves.laid.mem_tasks.mp member with ⟨names, ⟨file, found⟩, rfl⟩
    rw [sameSource] at found
    exact ⟨names, file, found, (leaves.outdated_iff trees outside types found).mp outdated, isPath⟩
  · rintro ⟨names, file, isFile, differs, rfl⟩
    have found := isFile
    rw [← outside.source_same created] at found
    have outdated := (leaves.outdated_iff trees outside types isFile).mpr differs
    rcases (leaves.settled found).1 with ⟨current, _⟩ | ⟨_, opened, _⟩
    · exact absurd outdated current
    · exact opened

/-- What a dry run names. -/
theorem Announces.mem_reported
    (announces : Announces start sourceDir targetDir source target listed after)
    (trees : SyncTrees start sourceDir targetDir source target) (fresh : start.reported = [])
    {path : Bytes} :
    path ∈ after.reported.map Prod.snd ↔
      ∃ names file, start.files (source ++ names) = some (.regular file) ∧
        ¬ (start.files.resolve start.cwd targetDir = some target ∧
          multiThread.SameThere start target names file) ∧ path = targetDir ++ Path.below names := by
  have reported : after.reported =
      toReport start (listed.map (taskFor start sourceDir targetDir source target)) := by
    rw [announces.names, SysState.naming, fresh, List.nil_append]
  rw [reported, toReport, List.map_map, List.mem_map]
  simp only [List.mem_filter, List.mem_map, announces.lists.mem_iff, List.nil_prefix, true_and,
    Bool.not_eq_true', ← Bool.not_eq_true]
  constructor
  · rintro ⟨_, ⟨⟨names, ⟨file, found⟩, rfl⟩, differs⟩, rfl⟩
    dsimp only [taskFor] at differs
    rw [fileAt_of_regular found, trees.comparison_start found] at differs
    exact ⟨names, file, found, differs, rfl⟩
  · rintro ⟨names, file, found, differs, rfl⟩
    refine ⟨_, ⟨⟨names, ⟨file, found⟩, rfl⟩, ?_⟩, rfl⟩
    dsimp only [taskFor]
    rw [fileAt_of_regular found, trees.comparison_start found]
    exact differs

end Runs

/-- A dry run returns 1, changes no file and opens none for writing. It names what a real
run opens, whatever the threads and their schedule are, exactly if the path of the target
leads there from the start or no file is the same there already. -/
theorem dryRun_announces_iff {start after opened : SysState} {real dry : SyncConfig}
    {source target : Place} {depth again : Nat} {code codeDry : Int}
    (trees : SyncTrees start real.sourceDir real.targetDir source target)
    (outside : WayOutside start real.targetDir source target)
    (types : RightTypes start source target)
    (fresh : start.opened = [] ∧ start.reported = [])
    (same : dry.sourceDir = real.sourceDir ∧ dry.targetDir = real.targetDir)
    (flags : real.dryRun = false ∧ dry.dryRun = true) (threads : 0 < real.threadCount)
    (run : PerformSync Answers real depth start code opened)
    (runDry : PerformSync Answers dry again start codeDry after) :
    (codeDry = 1 ∧ after = { start with reported := after.reported }) ∧
      ((∀ path, path ∈ after.reported.map Prod.snd ↔ path ∈ opened.opened) ↔
        (start.files.resolve start.cwd real.targetDir = some target ∨
          ∀ names file, start.files (source ++ names) = some (.regular file) →
            ¬ multiThread.SameThere start target names file)) := by
  have treesDry := trees
  rw [← same.1, ← same.2] at treesDry
  rcases runDry.announces treesDry flags.2 with ⟨isOne, listedDry, announces⟩
  rcases run.leaves trees flags.1 threads with ⟨_, base, made, listed, leaves⟩
  rw [same.1, same.2] at announces
  have named := @Announces.mem_reported _ _ _ _ _ _ _ announces trees fresh.2
  have writes := @Leaves.mem_opened _ _ _ _ _ _ _ _ _ _ leaves trees outside types fresh.1
  refine ⟨⟨isOne, ?_⟩, fun agree => ?_, fun sees path => ?_⟩
  · rw [announces.names]
    rfl
  · by_cases resolved : start.files.resolve start.cwd real.targetDir = some target
    · exact Or.inl resolved
    refine Or.inr fun names file isFile isSame => ?_
    have inDry : real.targetDir ++ Path.below names ∈ after.reported.map Prod.snd :=
      named.mpr ⟨names, file, isFile, fun both => resolved both.1, rfl⟩
    rcases writes.mp ((agree _).mp inDry) with ⟨others, other, isOther, differs, samePath⟩
    have leads := congrArg (Path.destination start.cwd) samePath
    rw [trees.target_destination (trees.file_there isFile).2,
      trees.target_destination (trees.file_there isOther).2] at leads
    cases List.append_cancel_left leads
    rw [isFile] at isOther
    cases isOther
    exact differs isSame
  · rw [named, writes]
    constructor
    · rintro ⟨names, file, isFile, differs, isPath⟩
      refine ⟨names, file, isFile, fun isSame => ?_, isPath⟩
      rcases sees with resolved | none
      · exact differs ⟨resolved, isSame⟩
      · exact none names file isFile isSame
    · rintro ⟨names, file, isFile, differs, isPath⟩
      exact ⟨names, file, isFile, fun both => differs both.2, isPath⟩

def twoTreesDry : SyncConfig := { twoTreesConfig 3 with dryRun := true }

/-- A dry run and a real run of `/s` to `/t`, behind which the file `a` is named and
opened. -/
theorem dryRun_announces_iff_twoTrees :
    ∃ after opened, PerformSync Answers twoTreesDry 2 twoTrees 1 after ∧
      PerformSync Answers (twoTreesConfig 3) 2 twoTrees 1 opened ∧
      after.files = twoTrees.files ∧ ∀ path, path ∈ after.reported.map Prod.snd ↔ path ∈ opened.opened := by
  have trees : SyncTrees twoTrees (twoTreesConfig 3).sourceDir (twoTreesConfig 3).targetDir
      [[115]] [[116]] := twoTrees_syncTrees
  have comes : ComesToEnd (twoTreesConfig 3) 2 twoTrees :=
    comesToEnd trees rfl (by decide) ⟨rfl, rfl, twoTrees_unhindered.way⟩
      fun _ created => twoTrees_unhindered.passable trees twoTrees_outside twoTrees_types created
  rcases comes.exists_run with ⟨code, opened, run⟩
  rcases run.leaves trees rfl (by decide) with ⟨rfl, _⟩
  have treesDry : SyncTrees twoTrees twoTreesDry.sourceDir twoTreesDry.targetDir [[115]] [[116]] :=
    twoTrees_syncTrees
  have always := prepareSync_announces True 2 treesDry rfl (fun _ => twoTrees_unhindered.finite)
    fun _ => twoTrees_unhindered.deep
  rcases Program.Always.exists_run (fun _ _ answered => answered trivial) always with
    ⟨_, after, prepared, rfl, _⟩
  have runDry : PerformSync Answers twoTreesDry 2 twoTrees 1 after := .returned prepared
  have same : twoTreesDry.sourceDir = (twoTreesConfig 3).sourceDir ∧
      twoTreesDry.targetDir = (twoTreesConfig 3).targetDir := ⟨rfl, rfl⟩
  rcases dryRun_announces_iff trees twoTrees_outside twoTrees_types ⟨rfl, rfl⟩ same ⟨rfl, rfl⟩
    (by decide) run runDry with ⟨⟨_, frame⟩, iff⟩
  refine ⟨after, opened, runDry, run, ?_, iff.mpr (Or.inl (by decide))⟩
  rw [frame]

end Apue.Sync
