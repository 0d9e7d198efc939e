import Apue.Sync.FileQueue
import Apue.Sync.SystemCalls

/-! # The multi-thread synchroniser

The functions of `Multi_thread_rsync_task/sync_util.c` as programs. The lines
they print are left out, but for the files that a dry run names.
-/

namespace Apue.Sync

open Apue.Foundation

def BUFFER_SIZE : Nat := 8192

structure SyncConfig where
  sourceDir : Bytes
  targetDir : Bytes
  threadCount : Nat
  dryRun : Bool

/-- What `snprintf` leaves of a joined path in a buffer with room for `limit`
bytes and the NUL byte. -/
def joinPath (limit : Nat) (directory name : Bytes) : Bytes :=
  (directory ++ Path.SLASH :: name).take limit

/-! ## One file -/

def isDirectory (path : Bytes) : Sys Bool := do
  match ← Sys.stat path with
  | none => return false
  | some found => return found.isDirectory

def fileExists (path : Bytes) : Sys Bool := Sys.access path

def getFileSize (path : Bytes) : Sys Int := do
  match ← Sys.stat path with
  | none => return -1
  | some found => return found.size

def getFileMtime (path : Bytes) : Sys Int := do
  match ← Sys.stat path with
  | none => return 0
  | some found => return found.mtime

/-- The loop of `compare_files` that reads both files, with a bound on its
rounds. -/
def compareContents (f1 f2 : Descriptor) : Nat → Nat → Sys Bool
  | 0, _ => Sys.outOfRounds
  | rounds + 1, offset => do
      let buffer1 ← Sys.fread f1 offset BUFFER_SIZE
      let buffer2 ← Sys.fread f2 offset BUFFER_SIZE
      if buffer1.length ≠ buffer2.length ∨ buffer1 ≠ buffer2 then
        return false
      if buffer1.length > 0 then
        compareContents f1 f2 rounds (offset + buffer1.length)
      else
        return true

def compareFiles (file1 file2 : Bytes) : Sys Bool := do
  if !(← fileExists file2) then return false
  let size1 ← getFileSize file1
  let size2 ← getFileSize file2
  if size1 ≠ size2 then return false
  let mtime1 ← getFileMtime file1
  let mtime2 ← getFileMtime file2
  if mtime1 = mtime2 ∧ size1 = size2 then return true
  if size1 < 1024 * 1024 then
    let f1 ← Sys.openRead file1
    let f2 ← Sys.openRead file2
    match f1, f2 with
    | some f1, some f2 =>
        let result ← compareContents f1 f2 (f1.length + 1) 0
        Sys.close f1
        Sys.close f2
        return result
    | some f1, none =>
        Sys.close f1
        return false
    | none, some f2 =>
        Sys.close f2
        return false
    | none, none => return false
  else
    return false

/-- The directories that the loop of `create_directory` makes: what is in front
of a slash, but for a slash at the front. -/
def slashPrefixes (path : Bytes) : List Bytes :=
  (List.range path.length).filterMap fun length =>
    if 0 < length ∧ path[length]? = some Path.SLASH then some (path.take length) else none

/-- The calls of `mkdir`, up to one that fails. -/
def mkdirs : List Bytes → Sys Bool
  | [] => return true
  | path :: paths => do
      let errno ← Sys.mkdir path
      if errno ≠ 0 ∧ errno ≠ EEXIST then
        return false
      mkdirs paths

/-- For the empty path the function reads the byte in front of its buffer. -/
def createDirectory (path : Bytes) : Sys Bool := do
  if ← fileExists path then return true
  let tmp := path.take (MAX_PATH_LEN - 1)
  if tmp = [] then
    Sys.undefined
  else
    let tmp := if tmp.getLast? = some Path.SLASH then tmp.dropLast else tmp
    mkdirs (slashPrefixes tmp ++ [tmp])

/-- What is in front of the last slash, which `strrchr` finds. -/
def beforeLastSlash (path : Bytes) : Option Bytes :=
  match path.reverse.dropWhile (· ≠ Path.SLASH) with
  | [] => none
  | _ :: front => some front.reverse

/-- The loop of `sync_file` that copies, with a bound on its rounds. A failed
`read` ends it as the end of the file does. -/
def copyContents (source target : Descriptor) : Nat → Nat → Sys Bool
  | 0, _ => Sys.outOfRounds
  | rounds + 1, offset => do
      match ← Sys.read source offset BUFFER_SIZE with
      | none => return true
      | some [] => return true
      | some buffer =>
          let written ← Sys.write target offset buffer
          if written ≠ some buffer.length then return false
          copyContents source target rounds (offset + buffer.length)

/-- `sync_file` returns 1 when it has left the target alone, too. -/
def Outcome.returned : Outcome → Bool
  | .failed => false
  | _ => true

/-- The part of `sync_file` that copies, once the directory is there. -/
def copyFile (sourceFile targetFile : Bytes) : Sys Outcome := do
  match ← Sys.openRead sourceFile with
  | none => return .failed
  | some source =>
      match ← Sys.openWrite targetFile with
      | none =>
          Sys.close source
          return .failed
      | some target =>
          let success ← copyContents source target (source.length + 1) 0
          if success then
            match ← Sys.fstat source with
            | none => Sys.close source
            | some found =>
                Sys.close target
                let _ ← Sys.utimes targetFile found.mtime
                Sys.close source
            return .copied
          else
            Sys.close target
            Sys.close source
            return .failed

/-- `sync_file` with the way in which it ends. -/
def syncFileOutcome (sourceFile targetFile : Bytes) (dryRun : Bool) : Sys Outcome := do
  if ← compareFiles sourceFile targetFile then
    return .same
  if dryRun then
    return .dryRun
  match beforeLastSlash targetFile with
  | none => copyFile sourceFile targetFile
  | some targetDir =>
      if ← createDirectory targetDir then
        copyFile sourceFile targetFile
      else
        return .failed

def syncFile (sourceFile targetFile : Bytes) (dryRun : Bool) : Sys Bool := do
  let outcome ← syncFileOutcome sourceFile targetFile dryRun
  Sys.finished outcome
  return outcome.returned

/-! ## The directories -/

def getRelativePath (base fullPath : Bytes) : Bytes :=
  if base.isPrefixOf fullPath then
    let relativeStart := fullPath.drop base.length
    let relativeStart :=
      if relativeStart.head? = some Path.SLASH then relativeStart.tail else relativeStart
    relativeStart.take (MAX_PATH_LEN - 1)
  else
    fullPath.take (MAX_PATH_LEN - 1)

/-- The joined paths of this program have at most this many bytes. -/
def JOIN_LIMIT : Nat := MAX_PATH_LEN - 2

/-- `traverse_directory`, with a bound on its depth. -/
def traverseDirectory : Nat → Bytes → Bytes → FileList → Sys FileList
  | 0, _, _, _ => Sys.tooDeep
  | depth + 1, sourcePath, targetPath, list => do
      match ← Sys.readDirectory sourcePath with
      | none => return list
      | some names =>
          names.foldlM (fun list name => do
            if name = Path.DOT ∨ name = Path.DOTDOT then return list
            let sourceFullPath := joinPath JOIN_LIMIT sourcePath name
            let targetFullPath := joinPath JOIN_LIMIT targetPath name
            if ← isDirectory sourceFullPath then
              Sys.descend sourcePath sourceFullPath
              traverseDirectory depth sourceFullPath targetFullPath list
            else
              Sys.handing sourcePath name sourceFullPath targetFullPath
              let size ← getFileSize sourceFullPath
              return addFileToList list sourceFullPath targetFullPath size) list

/-- `sync_directory_structure`, with a bound on its depth. -/
def syncDirectoryStructure (config : SyncConfig) : Nat → Bytes → Sys Unit
  | 0, _ => Sys.tooDeep
  | depth + 1, path => do
      match ← Sys.readDirectory path with
      | none => return ()
      | some names =>
          let relative := getRelativePath config.sourceDir path
          if relative.length > 0 then
            let _ ← createDirectory (joinPath JOIN_LIMIT config.targetDir relative)
          names.forM fun name => do
            if name = Path.DOT ∨ name = Path.DOTDOT then return ()
            let sourceFullPath := joinPath JOIN_LIMIT path name
            if ← isDirectory sourceFullPath then
              Sys.descend path sourceFullPath
              syncDirectoryStructure config depth sourceFullPath

/-! ## The whole -/

/-- The loop of a dry run over the files of the list. -/
def reportFiles : List FileInfo → Sys Unit
  | [] => return ()
  | file :: files => do
      if !(← compareFiles file.sourcePath file.targetPath) then
        Sys.report file.sourcePath file.targetPath
      reportFiles files

/-- What `perform_sync` comes to before it starts threads: it returns, or it has
the list that the threads work off. -/
inductive Prepared
  | returned (code : Int)
  | work (list : FileList)

/-- `perform_sync` up to its threads, with a bound on the depth of the
directories. -/
def prepareSync (config : SyncConfig) (depth : Nat) : Sys Prepared := do
  match ← Sys.stat config.sourceDir with
  | none => return .returned 0
  | some found =>
      if !found.isDirectory then return .returned 0
      if !config.dryRun then
        if !(← createDirectory config.targetDir) then return .returned 0
        syncDirectoryStructure config depth config.sourceDir
      let list ← traverseDirectory depth config.sourceDir config.targetDir initFileList
      if list.files.length = 0 then return .returned 1
      if config.dryRun then
        reportFiles list.files
        return .returned 1
      return .work list

/-- A run of `perform_sync` whose threads can all be created: it returns before
it starts threads, or it returns when they all have. -/
inductive PerformSync
    (answers : (call : SysCall) → SysState → SysResponse call → SysState → Prop)
    (config : SyncConfig) (depth : Nat) (before : SysState) : Int → SysState → Prop
  | returned {code : Int} {after : SysState}
      (prepared : (prepareSync config depth).Runs answers before (.returned code) after) :
      PerformSync answers config depth before code after
  | worked {list : FileList} {between : SysState}
      {pool : Pool (Fin config.threadCount) (WorkerCommand SysCall) (WorkerResponse SysResponse)
        (WorkerState (Fin config.threadCount) SysState) Unit}
      (prepared : (prepareSync config depth).Runs answers before (.work list) between)
      (reached : Pool.Reachable (WorkerStep answers)
        (startWorkers (Fin config.threadCount) syncFile config.dryRun list between) pool)
      (joined : ∀ thread, pool.programs thread = .done ()) :
      PerformSync answers config depth before (if pool.state.errors > 0 then 0 else 1)
        pool.state.system

end Apue.Sync
