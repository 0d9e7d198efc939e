import Apue.Sync.Children
import Apue.Sync.SynchronisedTrees

/-! # Whole runs of the multi-process synchroniser

This program puts two slashes between the directory of the target and the path of a
directory below it. Behind a run the target has what is in the source, whatever the
schedule of the children is.
-/

namespace Apue.Sync

open Apue.Foundation

section Slash

variable {start base : SysState} {sourceDir targetDir : Bytes} {source target place : Place}
  {names : List Bytes} {depth : Nat}

theorem destination_slash (nonempty : targetDir ≠ []) (cwd : Place) :
    Path.destination cwd (targetDir ++ [Path.SLASH]) = Path.destination cwd targetDir := by
  rw [Path.destination_name nonempty List.not_mem_nil]
  rfl

theorem onTheWay_slash (nonempty : targetDir ≠ []) :
    OnTheWay start (targetDir ++ [Path.SLASH]) place ↔ OnTheWay start targetDir place := by
  have isLadder : ladder (targetDir ++ [Path.SLASH]) = ladder targetDir ++ [targetDir ++ [Path.SLASH]] :=
    ladder_join nonempty List.not_mem_nil
  rw [OnTheWay, OnTheWay, isLadder]
  constructor
  · rintro ⟨rung, member, rfl⟩
    rcases List.mem_append.mp member with inFront | last
    · exact ⟨rung, inFront, rfl⟩
    · refine ⟨targetDir, List.mem_append_right _ (List.mem_singleton.mpr rfl), ?_⟩
      rw [List.mem_singleton.mp last, destination_slash nonempty]
  · rintro ⟨rung, member, rfl⟩
    exact ⟨rung, List.mem_append_left _ member, rfl⟩

/-- The paths fit with one more slash. -/
structure Roomy (start : SysState) (targetDir : Bytes) (source : Place) : Prop where
  short : targetDir.length + 1 < MAX_PATH_LEN
  fits : ∀ names, names ≠ [] →
    start.files (source ++ names) ≠ none ∨ OnTheWay start targetDir (source ++ names) →
    (targetDir ++ Path.below names).length < JOIN_LIMIT

theorem SyncTrees.slash (trees : SyncTrees start sourceDir targetDir source target)
    (roomy : Roomy start targetDir source) :
    SyncTrees start sourceDir (targetDir ++ [Path.SLASH]) source target where
  wellFormed := trees.wellFormed
  leads := trees.leads
  nonempty := List.append_ne_nil_of_left_ne_nil trees.nonempty _
  short := by
    rw [List.length_append]
    exact roomy.short
  destination := (destination_slash trees.nonempty _).trans trees.destination
  notAbove := trees.notAbove
  notBelow := trees.notBelow
  fits := by
    intro names more there
    rw [onTheWay_slash trees.nonempty] at there
    have room := roomy.fits names more there
    refine ⟨(trees.fits names more there).1, ?_⟩
    simp only [List.length_append, List.length_cons, List.length_nil] at room ⊢
    omega

theorem WayOutside.slash (outside : WayOutside start targetDir source target)
    (nonempty : targetDir ≠ []) : WayOutside start (targetDir ++ [Path.SLASH]) source target :=
  fun place way => outside place ((onTheWay_slash nonempty).mp way)

/-- No regular file is in place of the target. -/
theorem RightTypes.notFile (types : RightTypes start source target)
    (directory : start.files.isDirectory source = true)
    (destination : Path.destination start.cwd targetDir = target) : ¬ NamesFile start targetDir := by
  rintro ⟨file, isFile⟩
  rcases Files.isDirectory_iff.mp directory with ⟨size, mtime, there⟩
  rw [destination] at isFile
  have right := types [] _ _ (by rw [List.append_nil]; exact there)
    (by rw [List.append_nil]; exact isFile)
  cases right

theorem Unhindered.slash (unhindered : Unhindered start targetDir source depth)
    (trees : SyncTrees start sourceDir targetDir source target)
    (types : RightTypes start source target) :
    Unhindered start (targetDir ++ [Path.SLASH]) source depth where
  cwd := unhindered.cwd
  way := by
    intro rung member
    have isPrefixes : slashPrefixes (targetDir ++ [Path.SLASH]) = ladder targetDir := by
      have joined : slashPrefixes (targetDir ++ [Path.SLASH]) =
          slashPrefixes targetDir ++ if targetDir = [] then [] else [targetDir] :=
        slashPrefixes_join List.not_mem_nil
      rw [if_neg trees.nonempty] at joined
      exact joined
    rw [isPrefixes] at member
    rcases List.mem_append.mp member with inFront | last
    · exact unhindered.way rung inFront
    · rw [List.mem_singleton.mp last]
      exact types.notFile trees.leads.2 trees.destination
  finite := unhindered.finite
  deep := unhindered.deep

/-- What leads to a directory does so with a slash behind it, too. -/
theorem made_slash (leads : base.files.LeadsToDirectory base.cwd targetDir target)
    (short : targetDir.length + 1 < MAX_PATH_LEN) (nonempty : targetDir ≠ []) :
    Made (targetDir ++ [Path.SLASH]) base := by
  have resolved := Files.resolve_name leads.1 leads.2 (List.not_mem_nil : Path.SLASH ∉ [])
  apply Made.of_isSome
  · rw [List.length_append]
    exact short
  · intro same
    have lengths := congrArg List.length same
    have positive := List.length_pos_iff.mpr nonempty
    simp only [List.length_append, List.length_cons, List.length_nil] at lengths
    omega
  · exact isSome_of_leads ⟨resolved, leads.2⟩

/-- The directories that were made with two slashes are found with one. -/
theorem LaidOut.unslash {made : SysState} {listed : List (List Bytes)}
    (laid : LaidOut start base made sourceDir (targetDir ++ [Path.SLASH]) source target listed)
    (created : Grown (OnTheWay start targetDir) start base)
    (roots : Roots base sourceDir targetDir source target)
    (leads : base.files.LeadsToDirectory base.cwd targetDir target)
    (wellFormed : made.files.WellFormed) (root : base.files.isDirectory [] = true)
    (types : RightTypes base source target) :
    LaidOut start base made sourceDir targetDir source target listed where
  created := created
  roots := roots
  grown := laid.grown
  directories := by
    intro names isDirectory
    have there := SourceTree.there_of_directory isDirectory
    have directory := (laid.leads root types isDirectory).2
    have resolved := Files.resolve_below wellFormed (laid.grown.resolve leads.1)
      (SourceTree.there_of_directory directory)
    rcases eq_or_ne names [] with rfl | more
    · rw [Path.below_nil, List.append_nil]
      exact laid.grown.made roots.made
    · exact Made.of_isSome (Nat.lt_of_le_of_lt (roots.targetFits names more there) (by decide))
        (below_notRoot roots.nonempty more) (isSome_of_leads ⟨resolved, directory⟩)
  lists := laid.lists

end Slash

namespace MultiProcess

section Runs

variable {start base made after : SysState} {config : SyncConfig} {sourceDir targetDir : Bytes}
  {source target : Place} {names : List Bytes} {listed : List (List Bytes)} {total : Prop}
  {depth : Nat}

theorem getRelativePath_below (fits : (sourceDir ++ Path.below names).length ≤ JOIN_LIMIT) :
    MultiProcess.getRelativePath sourceDir (sourceDir ++ Path.below names) = Path.below names := by
  rw [MultiProcess.getRelativePath, if_pos (List.isPrefixOf_iff_prefix.mpr (List.prefix_append _ _)),
    List.drop_left, List.take_of_length_le]
  rw [List.length_append] at fits
  exact Nat.le_trans (Nat.le_trans (Nat.le_add_left _ _) fits) (by decide)

theorem createRelative_below (more : names ≠ [])
    (fits : (targetDir ++ [Path.SLASH] ++ Path.below names).length ≤ JOIN_LIMIT) :
    createRelative targetDir (Path.below names) =
      createDirectory (targetDir ++ [Path.SLASH] ++ Path.below names) >>= fun _ => pure () := by
  have joined : joinPath JOIN_LIMIT targetDir (Path.below names) =
      targetDir ++ [Path.SLASH] ++ Path.below names := by
    rw [List.append_assoc, List.singleton_append] at fits ⊢
    exact List.take_of_length_le fits
  have positive : 0 < (Path.below names).length := by
    rcases List.exists_cons_of_ne_nil more with ⟨name, rest, rfl⟩
    exact Nat.succ_pos _
  rw [createRelative, joined, if_pos positive]

theorem syncDirectoryStructure_throughout
    (roots : Roots base config.sourceDir (config.targetDir ++ [Path.SLASH]) source target)
    (free : total → DirectoriesFree base source (config.targetDir ++ [Path.SLASH]))
    (finite : total → {names | base.files (source ++ names) ≠ none}.Finite) {depth : Nat}
    (enough : total → ∀ names, base.files (source ++ names) ≠ none → names.length < depth) :
    Throughout total (fun _ after => Grown (BelowTarget base source target) base after ∧
        ∀ names, base.files.isDirectory (source ++ names) = true →
          Made (config.targetDir ++ [Path.SLASH] ++ Path.below names) after)
      (MultiProcess.syncDirectoryStructure config depth config.sourceDir) base := by
  have isDirectory := roots.tree.directory
  rw [← List.append_nil source] at isDirectory
  have prelude : ∀ names (arg : Unit) state, base.files.isDirectory (source ++ names) = true →
      Grown (BelowTarget base source target) base state → Throughout total
        (fun _ after => Grown (BelowTarget base source target) state after ∧
          MadeBelow (config.targetDir ++ [Path.SLASH]) names after)
        ((multiProcessSyncDirectoryStructureLoop config).prelude
          (config.sourceDir ++ Path.below names) arg) state := by
    intro names arg state isDirectory grown
    dsimp only [multiProcessSyncDirectoryStructureLoop]
    rcases eq_or_ne names [] with rfl | more
    · have relative : MultiProcess.getRelativePath config.sourceDir
          (config.sourceDir ++ Path.below []) = [] := by
        rw [Path.below_nil, List.append_nil, MultiProcess.getRelativePath,
          if_pos (List.isPrefixOf_iff_prefix.mpr (List.prefix_refl _)), List.drop_length]
        rfl
      have isMade := grown.made roots.made
      rw [← List.append_nil (config.targetDir ++ [Path.SLASH])] at isMade
      rw [relative]
      exact ⟨Grown.refl _ _, isMade⟩
    · have there := SourceTree.there_of_directory isDirectory
      rw [getRelativePath_below (roots.tree.fits names more there),
        createRelative_below more (roots.targetFits names more there)]
      apply Program.Always.bind
      exact roots.createDirectory_throughout free more isDirectory grown
  have stays : ∀ names before after, Grown (BelowTarget base source target) before after →
      MadeBelow (config.targetDir ++ [Path.SLASH]) names before →
      MadeBelow (config.targetDir ++ [Path.SLASH]) names after :=
    fun _ _ _ grown => grown.made
  have created : Throughout total (fun _ after => Grown (BelowTarget base source target) base after ∧
      ∀ more, base.files.isDirectory (source ++ ([] ++ more)) = true →
        MadeBelow (config.targetDir ++ [Path.SLASH]) ([] ++ more) after)
      (MultiProcess.syncDirectoryStructure config depth (config.sourceDir ++ Path.below [])) base :=
    (multiProcessSyncDirectoryStructureLoop config).creates roots.tree roots.outside finite stays
      prelude (fun _ _ _ _ => rfl) () isDirectory enough (Grown.refl _ base)
  rw [Path.below_nil, List.append_nil] at created
  exact created

/-- The entry of the list for a file. -/
def listedFile (state : SysState) (sourceDir : Bytes) (source : Place) (names : List Bytes) : FileInfo :=
  ⟨(sourceDir ++ Path.below names).take (MAX_PATH_LEN - 1), fileSize state (source ++ names)⟩

theorem foldl_listed (state : SysState) (sourceDir : Bytes) (source : Place)
    (items : List (List Bytes)) (list : List FileInfo) :
    items.foldl (fun list names => list ++ [listedFile state sourceDir source names]) list =
      list ++ items.map (listedFile state sourceDir source) := by
  induction items generalizing list with
  | nil => exact (List.append_nil list).symm
  | cons names items hypothesis =>
      rw [List.foldl_cons, hypothesis, List.append_assoc]
      rfl

/-- Every regular file of the source is on the list, once. -/
theorem traverseDirectory_throughout (tree : SourceTree base sourceDir source)
    (finite : total → {names | base.files (source ++ names) ≠ none}.Finite) {depth : Nat}
    (enough : total → ∀ names, base.files (source ++ names) ≠ none → names.length < depth) :
    Throughout total (fun files after => after = base ∧ ∃ listed, ListsFiles base source [] listed ∧
        files.map FileInfo.path = listed.map fun names => sourceDir ++ Path.below names)
      (MultiProcess.traverseDirectory depth sourceDir []) base := by
  have isDirectory := tree.directory
  rw [← List.append_nil source] at isDirectory
  have leaf : ∀ names name (arg acc : List FileInfo), RegularAt base source (names ++ [name]) → True →
      Throughout total (fun result after => after = base ∧
          result = acc ++ [listedFile base sourceDir source (names ++ [name])])
        (multiProcessTraverseDirectoryLoop.leaf (sourceDir ++ Path.below names) arg name acc) base := by
    rintro names name list acc ⟨file, found⟩ _
    have there := (tree.short ⟨file, found⟩).2
    have isSize : fileSize base (source ++ (names ++ [name])) = (nodeStat (.regular file)).size := by
      rw [fileSize, found]
    dsimp only [multiProcessTraverseDirectoryLoop]
    rw [tree.joinPath there, listedFile, isSize, MultiProcess.addFileToList]
    apply getFileSize_throughout (tree.found _ _ found)
    exact ⟨rfl, rfl⟩
  have collected : Throughout total (fun files after => after = base ∧ ∃ listed,
      ListsFiles base source [] listed ∧ files = listed.foldl
        (fun list names => list ++ [listedFile base sourceDir source names]) [])
      (MultiProcess.traverseDirectory depth (sourceDir ++ Path.below []) []) base :=
    multiProcessTraverseDirectoryLoop.collects tree finite (fun _ _ => True) _ (fun _ _ => rfl)
      (fun _ _ _ _ _ _ => ⟨trivial, rfl⟩) leaf isDirectory enough trivial
  rw [Path.below_nil, List.append_nil] at collected
  apply collected.mono
  rintro files after ⟨rfl, listed, lists, rfl⟩
  refine ⟨rfl, listed, lists, ?_⟩
  rw [foldl_listed, List.nil_append, List.map_map]
  apply List.map_congr_left
  intro names member
  rcases tree.short ((lists.mem_iff names).mp member).2 with ⟨nonempty, there⟩
  exact take_of_short (Nat.lt_of_le_of_lt (tree.fits names nonempty there) (by decide))

/-- What `perform_sync` comes to before it forks. -/
structure IsPrepared (start made : SysState) (sourceDir targetDir : Bytes) (source target : Place)
    (base : SysState) (listed : List (List Bytes)) (prepared : Prepared) : Prop where
  laid : LaidOut start base made sourceDir targetDir source target listed
  result : prepared = .returned 1 ∧ listed = [] ∨ ∃ files, prepared = .work files ∧
    files.map FileInfo.path = listed.map fun names => sourceDir ++ Path.below names

theorem prepareSync_throughout (total : Prop) (depth : Nat)
    (trees : SyncTrees start config.sourceDir config.targetDir source target)
    (roomy : Roomy start config.targetDir source)
    (outside : WayOutside start config.targetDir source target)
    (types : RightTypes start source target)
    (unhindered : total → Unhindered start config.targetDir source depth) :
    Throughout total (fun prepared made => ∃ base listed,
        IsPrepared start made config.sourceDir config.targetDir source target base listed prepared)
      (MultiProcess.prepareSync config depth) start := by
  have slashed := trees.slash roomy
  have root := trees.wellFormed.root
  rw [MultiProcess.prepareSync]
  apply Program.Always.call fun _ => ⟨_, _, .stat _ start⟩
  intro response after answered
  rcases answers_stat answered with ⟨rfl, rfl⟩
  rcases Files.isDirectory_iff.mp trees.leads.2 with ⟨size, mtime, there⟩
  rw [statOf_of_lookup (Files.lookup_eq_some.mpr ⟨trees.leads.1, there⟩)]
  dsimp only [nodeStat]
  simp only [Bool.not_true, Bool.false_eq_true, if_false]
  apply Program.Always.bind
  have created : Throughout total (fun result last => result = true ∧
      Grown (OnTheWay after config.targetDir) after last ∧ Made config.targetDir last)
      (createDirectory config.targetDir) after :=
    createDirectory_throughout trees.nonempty trees.short trees.notRoot
      (fun rung member => ⟨rung, member, rfl⟩)
      fun isTotal => ⟨root, (unhindered isTotal).cwd, (unhindered isTotal).way⟩
  apply (always_wellFormed created trees.wellFormed).mono
  rintro _ base ⟨⟨rfl, grown, isMade⟩, wellFormed⟩
  simp only [Bool.not_true, Bool.false_eq_true, if_false]
  have roots := trees.roots grown wellFormed isMade
  have baseTypes := types.created outside grown
  have baseRoot := grown.isDirectory root
  have leads := isMade.leads baseRoot trees.nonempty trees.short
    (baseTypes.notFile roots.tree.directory roots.destination)
  rw [roots.destination] at leads
  have grownSlash : Grown (OnTheWay after (config.targetDir ++ [Path.SLASH])) after base :=
    grown.mono fun place way => (onTheWay_slash trees.nonempty).mpr way
  have slashedRoots := slashed.roots grownSlash wellFormed
    (made_slash leads roomy.short trees.nonempty)
  have passable : total → Passable base (config.targetDir ++ [Path.SLASH]) source target depth :=
    fun isTotal => ((unhindered isTotal).slash trees types).passable slashed
      (outside.slash trees.nonempty) types grownSlash
  apply Program.Always.bind
  apply (always_wellFormed (syncDirectoryStructure_throughout slashedRoots
    (fun isTotal => (passable isTotal).free) (fun isTotal => (passable isTotal).finite)
    fun isTotal => (passable isTotal).deep) wellFormed).mono
  rintro _ made ⟨⟨grownInside, directories⟩, madeWellFormed⟩
  have same := grownInside.source_same roots.outside
  apply Program.Always.bind
  have traversed : Throughout total (fun files after => after = made ∧ ∃ listed,
      ListsFiles made source [] listed ∧
      files.map FileInfo.path = listed.map fun names => config.sourceDir ++ Path.below names)
      (MultiProcess.traverseDirectory depth config.sourceDir []) made := by
    apply traverseDirectory_throughout (roots.tree.grown grownInside roots.outside)
    · intro isTotal
      simp only [same]
      exact (passable isTotal).finite
    · intro isTotal names there
      rw [same] at there
      exact (passable isTotal).deep names there
  apply traversed.mono
  rintro files last ⟨rfl, listed, lists, paths⟩
  have laidSlash : LaidOut after base last config.sourceDir (config.targetDir ++ [Path.SLASH])
      source target listed := ⟨grownSlash, slashedRoots, grownInside, directories, lists⟩
  have laid := laidSlash.unslash grown roots leads madeWellFormed baseRoot baseTypes
  split
  · rename_i empty
    rw [← List.length_map FileInfo.path, paths, List.length_map, List.length_eq_zero_iff] at empty
    exact ⟨base, listed, laid, Or.inl ⟨rfl, empty⟩⟩
  · exact ⟨base, listed, laid, Or.inr ⟨files, rfl, paths⟩⟩

/-! ## With the children -/

variable {files : List FileInfo} {buffering : Buffering}

/-- What the children have for their own, if the list is that of the source. -/
theorem exists_divided
    (laid : LaidOut start base made config.sourceDir config.targetDir source target listed)
    (paths : files.map FileInfo.path = listed.map fun names => config.sourceDir ++ Path.below names)
    (positive : 0 < config.processCount) :
    ∃ own : Nat → List Task, Ownership made own ∧ Divided config files own ∧
      ∀ task, (∃ child, task ∈ own child) ↔
        task ∈ listed.map (taskFor made config.sourceDir config.targetDir source target) := by
  have sources : files.map FileInfo.path =
      (listed.map (taskFor made config.sourceDir config.targetDir source target)).map
        Task.sourcePath := by
    rw [paths, List.map_map]
    rfl
  have cut := childSlices_flatten (files.map FileInfo.path) positive
  rw [sources] at cut
  rcases exists_parts cut with ⟨parts, isParts, whole⟩
  have workload := laid.workload
  rw [← whole] at workload
  have count : parts.length = config.processCount := by
    have lengths := congrArg List.length isParts
    rw [List.length_map, childSlices_length] at lengths
    exact lengths
  have inside : ∀ child task, task ∈ parts.getD child [] → child < parts.length ∧
      task ∈ parts.flatten := by
    intro child task member
    rcases Nat.lt_or_ge child parts.length with within | behind
    · rw [List.getD_eq_getElem _ _ within] at member
      exact ⟨within, List.mem_flatten.mpr ⟨_, List.getElem_mem within, member⟩⟩
    · rw [List.getD_eq_default _ _ behind] at member
      exact absurd member List.not_mem_nil
  refine ⟨fun child => parts.getD child [], .of_workload workload, ⟨?_, ?_, ?_⟩, fun task => ?_⟩
  · intro child
    rw [sliceOf, sources, ← isParts]
    exact List.getD_map parts [] (List.map Task.sourcePath)
  · intro child task member
    have isTask := (inside child task member).2
    rw [whole] at isTask
    rcases laid.mem_tasks.mp isTask with ⟨names, isFile, rfl⟩
    rcases laid.tree.short isFile with ⟨more, there⟩
    have sourceShort := laid.tree.fits names more there
    rw [laid.source_same] at there
    have targetShort := laid.roots.targetFits names more there
    refine ⟨Nat.lt_of_le_of_lt sourceShort (by decide), ?_⟩
    dsimp only [taskFor]
    rw [workerTarget, getRelativePath_below sourceShort,
      take_of_short (Nat.lt_of_le_of_lt targetShort (by decide))]
  · intro child task member
    rw [← count]
    exact (inside child task member).1
  · rw [← whole]
    constructor
    · rintro ⟨child, member⟩
      exact (inside child task member).2
    · intro member
      rcases List.mem_flatten.mp member with ⟨part, isPart, inPart⟩
      rcases List.getElem_of_mem isPart with ⟨child, within, rfl⟩
      refine ⟨child, ?_⟩
      dsimp only
      rw [List.getD_eq_getElem _ _ within]
      exact inPart

theorem AllEnded.completed {own : Nat → List Task} {tasks : List Task}
    (ended : AllEnded made own after)
    (all : ∀ task, (∃ child, task ∈ own child) ↔ task ∈ tasks) :
    Completed multiProcess made tasks after where
  toChanges := ended.since.mono fun task ⟨child, _, member⟩ => (all task).mp ⟨child, member⟩
  settled := by
    intro task isTask
    rcases (all task).mpr isTask with ⟨child, member⟩
    exact ended.settled child task member

/-- Whatever the schedule of the children is, a run returns 1 and has settled every file. -/
theorem PerformSync.leaves {code : Int}
    (trees : SyncTrees start config.sourceDir config.targetDir source target)
    (roomy : Roomy start config.targetDir source)
    (outside : WayOutside start config.targetDir source target)
    (types : RightTypes start source target) (positive : 0 < config.processCount)
    (run : MultiProcess.PerformSync buffering config depth start code after) :
    code = 1 ∧ ∃ base made listed, Leaves multiProcess start base made after config.sourceDir
      config.targetDir source target listed := by
  have always := prepareSync_throughout False depth trees roomy outside types
    fun impossible => impossible.elim
  cases run with
  | returned prepared =>
      rcases always.result prepared with ⟨base, listed, laid, ended⟩
      rcases ended with ⟨same, rfl⟩ | ⟨files, impossible, _⟩
      · cases same
        exact ⟨rfl, base, after, [], laid, .nothing multiProcess after⟩
      · cases impossible
  | worked prepared reached exited =>
      rcases always.result prepared with ⟨base, listed, laid, ended⟩
      rcases ended with ⟨impossible, _⟩ | ⟨other, same, paths⟩
      · cases impossible
      · cases same
        rcases exists_divided laid paths positive with ⟨own, owned, divided, all⟩
        exact ⟨waitChildren_exited _, base, _, listed, laid,
          (children_settle owned divided positive reached exited).completed all⟩

/-- Every run of `perform_sync` comes to its end, under every schedule of the children. -/
def ComesToEnd (buffering : Buffering) (config : SyncConfig) (depth : Nat) (start : SysState) : Prop :=
  Throughout True (fun prepared made => ∀ files, prepared = .work files →
    (startChildren buffering config files made).Returns (fun _ => Answers) fun _ => True)
    (MultiProcess.prepareSync config depth) start

theorem ComesToEnd.exists_run (comes : MultiProcess.ComesToEnd buffering config depth start) :
    ∃ code after, MultiProcess.PerformSync buffering config depth start code after := by
  rcases Program.Always.exists_run (fun _ _ answered => answered trivial) comes with
    ⟨prepared, made, run, returns⟩
  cases prepared with
  | returned code => exact ⟨code, made, .returned run⟩
  | work files =>
      rcases (returns files rfl).exists_run with ⟨last, reached, ended⟩
      exact ⟨_, _, .worked run reached fun child => (ended child).choose_spec⟩

theorem comesToEnd (buffering : Buffering)
    (trees : SyncTrees start config.sourceDir config.targetDir source target)
    (roomy : Roomy start config.targetDir source)
    (outside : WayOutside start config.targetDir source target)
    (types : RightTypes start source target) (positive : 0 < config.processCount)
    (unhindered : Unhindered start config.targetDir source depth) :
    MultiProcess.ComesToEnd buffering config depth start := by
  apply (prepareSync_throughout True depth trees roomy outside types fun _ => unhindered).mono
  rintro prepared made ⟨base, listed, laid, ended⟩ files rfl
  rcases ended with ⟨impossible, _⟩ | ⟨other, same, paths⟩
  · cases impossible
  cases same
  rcases exists_divided laid paths positive with ⟨own, owned, divided, all⟩
  have possible : ∀ child, ∀ task ∈ own child, CanBeOpened made task := by
    intro child task member
    rcases laid.mem_tasks.mp ((all task).mp ⟨child, member⟩) with ⟨names, isFile, rfl⟩
    exact laid.canBeOpened (laid.created.isDirectory trees.wellFormed.root)
      (types.created outside laid.created) isFile
  have returns := @children_return made config buffering own files owned divided positive possible
  exact ⟨returns.ends, returns.goesOn, fun _ _ _ => trivial⟩

end Runs

/-- Every run of the multi-process `perform_sync` returns 1 and makes the target what it
should be, whatever the schedule of the children is and whenever their streams write. With
nothing in the way every run comes to its end. -/
theorem performSync_mirrors {start : SysState} {config : SyncConfig} {source target : Place}
    (trees : SyncTrees start config.sourceDir config.targetDir source target)
    (roomy : Roomy start config.targetDir source)
    (outside : WayOutside start config.targetDir source target)
    (types : RightTypes start source target) (positive : 0 < config.processCount)
    (buffering : Buffering) (depth : Nat) :
    (∀ code after, MultiProcess.PerformSync buffering config depth start code after →
      code = 1 ∧ multiProcess.Synchronised start after config.targetDir source target) ∧
    (Unhindered start config.targetDir source depth →
      MultiProcess.ComesToEnd buffering config depth start) := by
  constructor
  · intro code after run
    rcases run.leaves trees roomy outside types positive with ⟨isOne, base, made, listed, leaves⟩
    exact ⟨isOne, leaves.synchronised trees outside types⟩
  · exact comesToEnd buffering trees roomy outside types positive

theorem twoTrees_roomy : Roomy twoTrees [47, 116] [[115]] where
  short := by decide
  fits := by
    intro names more there
    have among : names ∈ ([[], [[97]], [[100]]] : List (List Bytes)) := by
      rcases there with isThere | way
      · exact twoTrees_source isThere
      · have impossible := onTheWay_twoTrees way
        simp at impossible
    simp only [List.mem_cons, List.not_mem_nil, or_false] at among
    rcases among with rfl | rfl | rfl
    · exact absurd rfl more
    · decide
    · decide

/-- `/s` to `/t`, with two children. -/
def twoTreesConfig : SyncConfig := ⟨[47, 115], [47, 116], 2⟩

theorem performSync_mirrors_twoTrees :
    ∃ after, MultiProcess.PerformSync (fun _ _ => 0) twoTreesConfig 2 twoTrees 1 after ∧
      multiProcess.Synchronised twoTrees after [47, 116] [[115]] [[116]] := by
  have trees : SyncTrees twoTrees twoTreesConfig.sourceDir twoTreesConfig.targetDir [[115]] [[116]] :=
    twoTrees_syncTrees
  have mirrors := performSync_mirrors trees twoTrees_roomy twoTrees_outside twoTrees_types
    (by decide) (fun _ _ => 0) 2
  rcases (mirrors.2 twoTrees_unhindered).exists_run with ⟨code, after, run⟩
  rcases mirrors.1 code after run with ⟨rfl, synchronised⟩
  exact ⟨after, run, synchronised⟩

end MultiProcess

end Apue.Sync
