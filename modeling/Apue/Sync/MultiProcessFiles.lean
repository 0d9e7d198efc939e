import Apue.Sync.MultiProcess
import Apue.Sync.MultiThread

/-! # The files of the multi-process synchroniser

The recursions of `Multi_process_rsync_task/sync_util.c` and the paths that its
children work on. `is_directory`, `get_file_size` and `create_directory` are
those of the multi-thread synchroniser.
-/

namespace Apue.Sync.MultiProcess

open Apue.Foundation

structure FileInfo where
  path : Bytes
  size : Int

structure SyncConfig where
  sourceDir : Bytes
  targetDir : Bytes
  processCount : Nat

def addFileToList (list : List FileInfo) (path : Bytes) : Sys (List FileInfo) := do
  let size ← getFileSize path
  return list ++ [⟨path.take (MAX_PATH_LEN - 1), size⟩]

/-- `traverse_directory`, with a bound on its depth. -/
def traverseDirectory : Nat → Bytes → List FileInfo → Sys (List FileInfo)
  | 0, _, _ => Sys.tooDeep
  | depth + 1, path, list => do
      match ← Sys.readDirectory path with
      | none => return list
      | some names =>
          names.foldlM (fun list name => do
            if name = Path.DOT ∨ name = Path.DOTDOT then return list
            let fullPath := joinPath JOIN_LIMIT path name
            if ← isDirectory fullPath then
              Sys.descend path fullPath
              traverseDirectory depth fullPath list
            else
              Sys.handing path name fullPath fullPath
              addFileToList list fullPath) list

/-- The slash behind the base stays. -/
def getRelativePath (base fullPath : Bytes) : Bytes :=
  if base.isPrefixOf fullPath then
    (fullPath.drop base.length).take (MAX_PATH_LEN - 1)
  else
    fullPath.take (MAX_PATH_LEN - 1)

/-- `sync_directory_structure`, with a bound on its depth. -/
def syncDirectoryStructure (config : SyncConfig) : Nat → Bytes → Sys Unit
  | 0, _ => Sys.tooDeep
  | depth + 1, path => do
      match ← Sys.readDirectory path with
      | none => return ()
      | some names =>
          let relative := getRelativePath config.sourceDir path
          if relative.length > 0 then
            let _ ← createDirectory (joinPath JOIN_LIMIT config.targetDir relative)
          names.forM fun name => do
            if name = Path.DOT ∨ name = Path.DOTDOT then return ()
            let fullPath := joinPath JOIN_LIMIT path name
            if ← isDirectory fullPath then
              Sys.descend path fullPath
              syncDirectoryStructure config depth fullPath

/-- The target that `worker_process` gives to `sync_file` for a file of its list. -/
def workerTarget (config : SyncConfig) (sourceFile : Bytes) : Bytes :=
  (config.targetDir ++ getRelativePath config.sourceDir sourceFile).take (MAX_PATH_LEN - 1)

/-- What `perform_sync` comes to before it forks: it returns, or it has the list that the
children share. -/
inductive Prepared
  | returned (code : Int)
  | work (files : List FileInfo)

/-- `perform_sync` up to its forks, with a bound on the depth of the directories. -/
def prepareSync (config : SyncConfig) (depth : Nat) : Sys Prepared := do
  match ← Sys.stat config.sourceDir with
  | none => return .returned 0
  | some found =>
      if !found.isDirectory then return .returned 0
      if !(← createDirectory config.targetDir) then return .returned 0
      syncDirectoryStructure config depth config.sourceDir
      let files ← traverseDirectory depth config.sourceDir []
      if files.length = 0 then return .returned 1
      return .work files

end Apue.Sync.MultiProcess
