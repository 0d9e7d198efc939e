import Apue.Sync.Traversals

/-! # Whether the recursions end

The bound on the depth of a recursion is a part of the model only; the recursion
of the program ends when some bound is never reached.
-/

namespace Apue.Sync

open Apue.Foundation

/-- The recursion ends, whatever the other calls return, and every recursive call
is for something below the directory that it is made from. -/
def EndsBelow {Result : Type} (files : Files) (cwd source : Place) (cut : Bytes)
    (program : Nat → Sys Result) : Prop :=
  ∃ depth, (descending files cwd source cut).Allows (program depth) ⟨files, []⟩

/-- Every recursion goes down the source only and ends there, if the joined paths
keep the names, and only then. -/
theorem recursions_end_iff {files : Files} (wellFormed : files.WellFormed)
    (finite : {there | files there ≠ none}.Finite) {cwd source : Place} {start : Bytes}
    (leads : files.LeadsToDirectory cwd start source) :
    (∀ targetPath list, EndsBelow files cwd source (start.take JOIN_LIMIT)
        (fun depth => traverseDirectory depth start targetPath list) ↔
      KeepsNames files cwd JOIN_LIMIT start) ∧
    (∀ config, EndsBelow files cwd source (start.take JOIN_LIMIT)
        (fun depth => syncDirectoryStructure config depth start) ↔
      KeepsNames files cwd JOIN_LIMIT start) ∧
    (∀ list, EndsBelow files cwd source (start.take JOIN_LIMIT)
        (fun depth => MultiProcess.traverseDirectory depth start list) ↔
      KeepsNames files cwd JOIN_LIMIT start) ∧
    (∀ config, EndsBelow files cwd source (start.take JOIN_LIMIT)
        (fun depth => MultiProcess.syncDirectoryStructure config depth start) ↔
      KeepsNames files cwd JOIN_LIMIT start) ∧
    ∀ dryRun dstDir, EndsBelow files cwd source (start.take SimpleRsync.JOIN_LIMIT)
        (fun depth => SimpleRsync.syncDirectory dryRun depth start dstDir) ↔
      KeepsNames files cwd SimpleRsync.JOIN_LIMIT start := by
  refine ⟨fun targetPath list => ?_, fun config => ?_, fun list => ?_, fun config => ?_,
    fun dryRun dstDir => ?_⟩
  · exact traverseDirectoryLoop.directoryRecursion.descends_iff wellFormed finite leads
      (targetPath, list) []
  · exact (syncDirectoryStructureLoop config).directoryRecursion.descends_iff wellFormed finite leads
      () []
  · exact multiProcessTraverseDirectoryLoop.directoryRecursion.descends_iff wellFormed finite leads
      list []
  · exact (multiProcessSyncDirectoryStructureLoop config).directoryRecursion.descends_iff wellFormed
      finite leads () []
  · exact (SimpleRsync.directoryRecursion dryRun).descends_iff wellFormed finite leads dstDir []

/-! ## Directories in directories -/

/-- Nothing but the directories on the way to a place. -/
def onlyDirectories (full : Place) : Files := fun place =>
  if place <+: full then some (.directory 0 0) else none

theorem onlyDirectories_wellFormed {full : Place} (proper : ∀ name ∈ full, Path.Proper name) :
    (onlyDirectories full).WellFormed where
  root := by rw [Files.isDirectory, onlyDirectories, if_pos List.nil_prefix]
  parent := by
    intro place name there
    rw [onlyDirectories, Option.ne_none_iff_exists'] at there
    rcases there with ⟨node, found⟩
    rw [Option.ite_none_right_eq_some] at found
    rw [Files.isDirectory, onlyDirectories, if_pos ((List.prefix_append _ _).trans found.1)]
  proper := by
    intro place name there
    rw [onlyDirectories, Option.ne_none_iff_exists'] at there
    rcases there with ⟨node, found⟩
    rw [Option.ite_none_right_eq_some] at found
    exact proper name (found.1.mem (by simp))

theorem onlyDirectories_finite (full : Place) :
    {there | onlyDirectories full there ≠ none}.Finite := by
  apply full.inits.toFinset.finite_toSet.subset
  intro there found
  rw [Set.mem_ofPred_eq, onlyDirectories, Option.ne_none_iff_exists'] at found
  rcases found with ⟨node, found⟩
  rw [Option.ite_none_right_eq_some] at found
  rw [Finset.mem_coe, List.mem_toFinset, List.mem_inits]
  exact found.1

/-- The directory `/s`, and a directory `b` in it. -/
theorem recursions_end_iff_small :
    EndsBelow (onlyDirectories [[115], [98]]) [] [[115]] ([47, 115].take JOIN_LIMIT)
        (fun depth => traverseDirectory depth [47, 115] [116] initFileList) ↔
      KeepsNames (onlyDirectories [[115], [98]]) [] JOIN_LIMIT [47, 115] :=
  (recursions_end_iff (onlyDirectories_wellFormed (by
      intro name member
      simp only [List.mem_cons, List.not_mem_nil, or_false] at member
      rcases member with rfl | rfl
      · exact ⟨by decide, by decide, by decide, by decide⟩
      · exact ⟨by decide, by decide, by decide, by decide⟩))
    (onlyDirectories_finite _) ⟨by decide +kernel, by decide +kernel⟩).1 [116] initFileList

/-- A name of 254 letters. -/
def longName : Bytes := List.replicate 254 97

theorem longName_proper : Path.Proper longName where
  nonempty := by decide +kernel
  noSlash := by
    intro member
    exact absurd (List.eq_of_mem_replicate member) (by decide)
  noDot := by decide +kernel
  noDotDot := by decide +kernel

/-- Four directories with long names, one in the other, and a directory `b` in the
last one. -/
def deepFiles : Files := onlyDirectories [[115], longName, longName, longName, longName, [98]]

theorem deepFiles_wellFormed : deepFiles.WellFormed := by
  apply onlyDirectories_wellFormed
  intro name member
  simp only [List.mem_cons, List.not_mem_nil, or_false] at member
  rcases member with rfl | rfl | rfl | rfl | rfl | rfl
  · exact ⟨by decide, by decide, by decide, by decide⟩
  · exact longName_proper
  · exact longName_proper
  · exact longName_proper
  · exact longName_proper
  · exact ⟨by decide, by decide, by decide, by decide⟩

/-- The path of the fourth directory has 1022 bytes, so that the recursion takes
that directory itself for `b`. -/
theorem recursion_does_not_end :
    ¬ EndsBelow deepFiles [] [[115]] ([47, 115].take JOIN_LIMIT)
      (fun depth => traverseDirectory depth [47, 115] [116] initFileList) := by
  have leads : deepFiles.LeadsToDirectory [] [47, 115] [[115]] :=
    ⟨by decide +kernel, by decide +kernel⟩
  have directory : deepFiles.isDirectory
      ([[115]] ++ [longName, longName, longName, longName]) = true := by decide +kernel
  have entry : Entry deepFiles ([[115]] ++ [longName, longName, longName, longName]) [98] := by
    refine ⟨?_, by decide, by decide⟩
    rw [deepFiles, onlyDirectories, if_pos (by decide +kernel)]
    exact Option.some_ne_none _
  intro ends
  exact not_keepsNames deepFiles_wellFormed leads directory (by decide +kernel) entry
    ((traverseDirectoryLoop.directoryRecursion.descends_iff deepFiles_wellFormed
      (onlyDirectories_finite _) leads ([116], initFileList) []).mp ends)

end Apue.Sync
