import Apue.Sync.ProcessRuns
import Apue.Sync.SimpleRuns

/-! # The three synchronisers agree

From the same start the three programs leave the same in the target, if no file of the
target looks like its source without being the same.
-/

namespace Apue.Sync

open Apue.Foundation

/-- What there is at a place: nothing, a directory, or a file with some bytes. -/
def seenAt (state : SysState) (place : Place) : Option (Option Bytes) :=
  (state.files place).map fun node => match node with
    | .directory _ _ => none
    | .regular file => some file.data

/-- A file of the target that has the size and the time of its source has its bytes. -/
def NoLookAlikes (start : SysState) (source target : Place) : Prop :=
  ∀ names file copy, start.files (source ++ names) = some (.regular file) →
    start.files (target ++ names) = some (.regular copy) → copy.data.length = file.data.length →
    copy.mtime = file.mtime → copy.data = file.data

/-- The copies have the bytes, and so has what is taken for the same. -/
structure Synchroniser.Keeps (kind : Synchroniser) : Prop where
  copied : ∀ file copy, kind.copies file copy → copy.data = file.data
  same : ∀ file copy place, kind.comparison file (some (place, .regular copy)) = true →
    copy.data = file.data ∨ copy.data.length = file.data.length ∧ copy.mtime = file.mtime

theorem sizes_same {file copy : RegularFile}
    (same : (nodeStat (.regular file)).size = (nodeStat (.regular copy)).size) :
    copy.data.length = file.data.length := by
  change ((file.data.length : Nat) : Int) = ((copy.data.length : Nat) : Int) at same
  omega

theorem multiThread_keeps : multiThread.Keeps where
  copied := fun _ _ copies => copies.1
  same := by
    intro file copy place taken
    rcases of_decide_eq_true taken with ⟨sizes, times | ⟨_, bytes⟩⟩
    · exact Or.inr ⟨sizes_same sizes, times.symm⟩
    · exact Or.inl bytes.symm

theorem MultiProcess.multiProcess_keeps : multiProcess.Keeps where
  copied := fun _ _ copies => copies
  same := fun _ _ _ taken => Or.inl (of_decide_eq_true taken).2.symm

theorem SimpleRsync.simple_keeps : simple.Keeps where
  copied := fun _ _ copies => copies.1
  same := by
    intro file copy place taken
    rcases of_decide_eq_true taken with ⟨sizes, times | ⟨other, isOther, bytes⟩⟩
    · exact Or.inr ⟨sizes_same sizes, times.symm⟩
    · cases isOther
      exact Or.inl bytes.symm

section Agreement

variable {start after other : SysState} {targetDir : Bytes} {source target : Place}
  {names : List Bytes} {file : RegularFile} {kind : Synchroniser}

theorem seenAt_regular (there : after.files (target ++ names) = some (.regular file)) :
    seenAt after (target ++ names) = some (some file.data) := by
  rw [seenAt, there]
  rfl

theorem seenAt_directory (isDirectory : after.files.isDirectory (target ++ names) = true) :
    seenAt after (target ++ names) = some none := by
  rcases Files.isDirectory_iff.mp isDirectory with ⟨size, mtime, there⟩
  rw [seenAt, there]
  rfl

/-- Without look-alikes a synchronised file has the bytes of its source. -/
theorem Synchroniser.Keeps.seenAt_file (keeps : kind.Keeps) (clear : NoLookAlikes start source target)
    (isFile : start.files (source ++ names) = some (.regular file))
    (synchronised : kind.SynchronisedFile start after target names file) :
    seenAt after (target ++ names) = some (some file.data) := by
  rcases synchronised with ⟨copy, isCopy, copies | ⟨untouched, taken⟩⟩
  · rw [seenAt_regular isCopy, keeps.copied file copy copies]
  · rw [seenAt_regular isCopy]
    rcases keeps.same file copy _ taken with bytes | ⟨sizes, times⟩
    · rw [bytes]
    · rw [clear names file copy isFile (untouched.symm.trans isCopy) sizes times]

/-- What the target has behind a synchronisation: the directories and the files of the
source, and else what it had. -/
def mirrored (start : SysState) (source target : Place) (names : List Bytes) : Option (Option Bytes) :=
  match start.files (source ++ names) with
  | none => seenAt start (target ++ names)
  | some (.directory _ _) => some none
  | some (.regular file) => some (some file.data)

theorem Synchroniser.Synchronised.seen (keeps : kind.Keeps)
    (clear : NoLookAlikes start source target)
    (synchronised : kind.Synchronised start after targetDir source target) (names : List Bytes) :
    seenAt after (target ++ names) = mirrored start source target names := by
  rw [mirrored]
  cases there : start.files (source ++ names) with
  | none => rw [seenAt, synchronised.sameOthers names there, seenAt]
  | some node =>
      cases node with
      | directory size mtime =>
          exact seenAt_directory (synchronised.directories names
            (Files.isDirectory_iff.mpr ⟨size, mtime, there⟩)).1
      | regular file => exact keeps.seenAt_file clear there (synchronised.files names file there)

/-- What is no file of the source is at no destination of a file. -/
theorem notTarget (notFile : ∀ file, start.files (source ++ names) ≠ some (.regular file)) :
    ∀ others file, start.files (source ++ others) = some (.regular file) →
      target ++ names ≠ target ++ others := by
  intro others file isFile same
  cases List.append_cancel_left same
  exact notFile file isFile

/-- The simple synchroniser does so, too, where it has a file to copy or a directory is
there. -/
theorem SimpleRsync.Mirrored.seen {depth : Nat} {srcDir dstDir : Bytes}
    (mirrors : SimpleRsync.Mirrored start after dstDir source target)
    (trees : SimpleRsync.Trees start depth srcDir dstDir source target)
    (types : RightTypes start source target) (wellFormed : after.files.WellFormed)
    (clear : NoLookAlikes start source target)
    (needed : start.files.isDirectory (source ++ names) = true → start.files (target ++ names) = none →
      ∃ more file, start.files (source ++ (names ++ more)) = some (.regular file)) :
    seenAt after (target ++ names) = mirrored start source target names := by
  rw [mirrored]
  cases there : start.files (source ++ names) with
  | none =>
      have notFile : ∀ file, start.files (source ++ names) ≠ some (.regular file) := by
        intro file isFile
        rw [there] at isFile
        cases isFile
      have same : after.files (target ++ names) = start.files (target ++ names) := by
        rcases mirrors.others _ (notTarget notFile) with same | ⟨absent, _, way⟩
        · exact same
        · rcases trees.missing_way way absent with ⟨more, isAbove⟩ | ⟨others, same, directory⟩
          · have lengths := congrArg List.length isAbove
            simp only [List.length_append] at lengths
            rw [List.length_eq_zero_iff.mp (by omega : names.length = 0), List.append_nil] at there
            have directory := trees.leads.2
            rw [Files.isDirectory, there] at directory
            cases directory
          · cases List.append_cancel_left same
            rw [Files.isDirectory, there] at directory
            cases directory
      rw [seenAt, same, seenAt]
  | some node =>
      cases node with
      | regular file => exact simple_keeps.seenAt_file clear there (mirrors.files names file there)
      | directory size mtime =>
          apply seenAt_directory
          have isDirectory : start.files.isDirectory (source ++ names) = true :=
            Files.isDirectory_iff.mpr ⟨size, mtime, there⟩
          cases isThere : start.files (target ++ names) with
          | none =>
              rcases needed isDirectory isThere with ⟨more, file, isFile⟩
              rcases mirrors.files _ file isFile with ⟨copy, isCopy, _⟩
              have nonempty : more ≠ [] := by
                rintro rfl
                rw [List.append_nil, there] at isFile
                cases isFile
              rw [← List.append_assoc] at isCopy
              apply wellFormed.isDirectory_above nonempty
              rw [isCopy]
              exact Option.some_ne_none _
          | some node =>
              have notFile : ∀ file, start.files (source ++ names) ≠ some (.regular file) := by
                intro file isFile
                rw [there] at isFile
                cases isFile
              have same : after.files (target ++ names) = start.files (target ++ names) := by
                rcases mirrors.others _ (notTarget notFile) with same | ⟨absent, _⟩
                · exact same
                · rw [isThere] at absent
                  cases absent
              have sameType := types names _ node there isThere
              cases node with
              | regular copy => cases sameType
              | directory otherSize otherTime =>
                  exact Files.isDirectory_iff.mpr ⟨otherSize, otherTime, same.trans isThere⟩

end Agreement

/-- Every run of each of the three programs leaves the same in the target, but for directories
of the source in which there is no file, which the simple one does not make. -/
theorem synchronisers_agree {start afterThreads afterProcesses afterSimple : SysState}
    {threads : SyncConfig} {processes : MultiProcess.SyncConfig} {source target : Place}
    {buffering : MultiProcess.Buffering} {depth depthProcesses depthSimple : Nat} {code other : Int}
    {result : Int}
    (same : processes.sourceDir = threads.sourceDir ∧ processes.targetDir = threads.targetDir)
    (real : threads.dryRun = false) (some : 0 < threads.threadCount ∧ 0 < processes.processCount)
    (trees : SyncTrees start threads.sourceDir threads.targetDir source target)
    (roomy : Roomy start threads.targetDir source)
    (treesSimple : SimpleRsync.Trees start depthSimple threads.sourceDir threads.targetDir source target)
    (outside : WayOutside start threads.targetDir source target)
    (types : RightTypes start source target) (cwd : start.files.isDirectory start.cwd = true)
    (finite : {names | start.files (source ++ names) ≠ none}.Finite)
    (clear : NoLookAlikes start source target)
    (runThreads : PerformSync Answers threads depth start code afterThreads)
    (runProcesses : MultiProcess.PerformSync buffering processes depthProcesses start other afterProcesses)
    (runSimple : Program.Runs Answers (SimpleRsync.syncDirectory false depthSimple threads.sourceDir
      threads.targetDir) start result afterSimple) (names : List Bytes) :
    seenAt afterProcesses (target ++ names) = seenAt afterThreads (target ++ names) ∧
      ((start.files.isDirectory (source ++ names) = true → start.files (target ++ names) = none →
        ∃ more file, start.files (source ++ (names ++ more)) = Option.some (.regular file)) →
      seenAt afterSimple (target ++ names) = seenAt afterThreads (target ++ names)) := by
  rcases runThreads.leaves trees real some.1 with ⟨_, _, _, _, leaves⟩
  have byThreads := Synchroniser.Synchronised.seen multiThread_keeps clear
    (leaves.synchronised trees outside types) names
  rw [← same.1, ← same.2] at trees
  rw [← same.2] at roomy outside
  have mirrors := (MultiProcess.performSync_mirrors trees roomy outside types some.2 buffering
    depthProcesses).1 other afterProcesses runProcesses
  have byProcesses := Synchroniser.Synchronised.seen MultiProcess.multiProcess_keeps clear
    mirrors.2 names
  refine ⟨byProcesses.trans byThreads.symm, fun needed => ?_⟩
  rw [byThreads]
  have visited := (SimpleRsync.visits_real treesSimple types cwd).run treesSimple (fun _ => finite)
    (SimpleRsync.Halfway.refl start threads.targetDir source target)
  have halfway := (visited.result runSimple).2
  exact (halfway.mirrored treesSimple types).seen treesSimple types
    (runs_wellFormed runSimple treesSimple.wellFormed) clear needed

theorem twoTrees_noLookAlikes : NoLookAlikes twoTrees [[115]] [[116]] := by
  intro names file copy isFile isCopy _ times
  have among := twoTrees_source (SimpleRsync.exists_of_isFile isFile)
  simp only [List.mem_cons, List.not_mem_nil, or_false] at among
  rcases among with rfl | rfl | rfl
  · cases isFile
  · cases isFile
    cases isCopy
    exact absurd times (by decide)
  · cases isFile

/-- A run of each program from `/s` to `/t`. -/
theorem synchronisers_agree_twoTrees : ∃ afterThreads afterProcesses afterSimple,
    PerformSync Answers (twoTreesConfig 3) 2 twoTrees 1 afterThreads ∧
    MultiProcess.PerformSync (fun _ _ => 0) MultiProcess.twoTreesConfig 2 twoTrees 1 afterProcesses ∧
    Program.Runs Answers (SimpleRsync.syncDirectory false 2 [47, 115] [47, 116]) twoTrees 0 afterSimple ∧
    seenAt afterProcesses [[116], [97]] = seenAt afterThreads [[116], [97]] ∧
    seenAt afterSimple [[116], [97]] = seenAt afterThreads [[116], [97]] := by
  have trees : SyncTrees twoTrees (twoTreesConfig 3).sourceDir (twoTreesConfig 3).targetDir
      [[115]] [[116]] := twoTrees_syncTrees
  have comes : ComesToEnd (twoTreesConfig 3) 2 twoTrees :=
    comesToEnd trees rfl (by decide) ⟨rfl, rfl, twoTrees_unhindered.way⟩
      fun _ created => twoTrees_unhindered.passable trees twoTrees_outside twoTrees_types created
  rcases comes.exists_run with ⟨code, afterThreads, runThreads⟩
  rcases runThreads.leaves trees rfl (by decide) with ⟨rfl, _⟩
  have treesProcesses : SyncTrees twoTrees MultiProcess.twoTreesConfig.sourceDir
      MultiProcess.twoTreesConfig.targetDir [[115]] [[116]] := twoTrees_syncTrees
  have comesProcesses := MultiProcess.comesToEnd (fun _ _ => 0) treesProcesses
    MultiProcess.twoTrees_roomy twoTrees_outside twoTrees_types (by decide) twoTrees_unhindered
  rcases comesProcesses.exists_run with ⟨code, afterProcesses, runProcesses⟩
  rcases runProcesses.leaves treesProcesses MultiProcess.twoTrees_roomy twoTrees_outside
    twoTrees_types (by decide) with ⟨rfl, _⟩
  have simple := (SimpleRsync.syncDirectory_dryRun SimpleRsync.twoTrees_trees twoTrees_types rfl
    twoTrees_unhindered.finite ⟨rfl, rfl⟩).1
  rcases Program.Always.exists_run (fun _ _ answered => answered trivial) simple with
    ⟨_, afterSimple, runSimple, rfl, _⟩
  have agree := synchronisers_agree ⟨rfl, rfl⟩ rfl ⟨by decide, by decide⟩ trees
    MultiProcess.twoTrees_roomy SimpleRsync.twoTrees_trees twoTrees_outside twoTrees_types rfl
    twoTrees_unhindered.finite twoTrees_noLookAlikes runThreads runProcesses runSimple [[97]]
  exact ⟨afterThreads, afterProcesses, afterSimple, runThreads, runProcesses, runSimple, agree.1,
    agree.2 fun impossible => Bool.noConfusion impossible⟩

end Apue.Sync
