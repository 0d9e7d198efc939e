import Apue.Sync.MultiThread

/-! # The simple synchroniser

The functions of `rsync_task/simple_rsync.c` as programs. The lines they print
are left out, but for the files that a dry run names.
-/

namespace Apue.Sync.SimpleRsync

open Apue.Foundation

def BUFFER_SIZE : Nat := 4096

/-- The joined paths of this program have at most this many bytes. -/
def JOIN_LIMIT : Nat := MAX_PATH_LEN - 1

/-- The loop of `copy_file_data`, with a bound on its rounds. -/
def copyContents (srcFd dstFd : Descriptor) : Nat → Nat → Sys Int
  | 0, _ => Sys.outOfRounds
  | rounds + 1, offset => do
      match ← Sys.read srcFd offset BUFFER_SIZE with
      | none =>
          Sys.close srcFd
          Sys.close dstFd
          return -1
      | some [] =>
          Sys.close srcFd
          Sys.close dstFd
          return 0
      | some buffer =>
          let bytesWritten ← Sys.write dstFd offset buffer
          if bytesWritten ≠ some buffer.length then
            Sys.close srcFd
            Sys.close dstFd
            return -1
          copyContents srcFd dstFd rounds (offset + buffer.length)

def copyFileData (srcPath dstPath : Bytes) : Sys Int := do
  match ← Sys.openRead srcPath with
  | none => return -1
  | some srcFd =>
      match ← Sys.openWrite dstPath with
      | none =>
          Sys.close srcFd
          return -1
      | some dstFd => copyContents srcFd dstFd (srcFd.length + 1) 0

def copyFileAttributes (srcPath dstPath : Bytes) : Sys Int := do
  match ← Sys.stat srcPath with
  | none => return -1
  | some srcStat =>
      if !(← Sys.chmod dstPath srcStat.mode) then return -1
      if !(← Sys.utimes dstPath srcStat.mtime) then return -1
      let errno ← Sys.chown dstPath
      if errno ≠ 0 ∧ errno ≠ EPERM then return -1
      return 0

/-- The loop of `files_are_identical`, with a bound on its rounds. Where both
calls of `read` fail, `memcmp` is called with the size -1. -/
def compareContents (fd1 fd2 : Descriptor) : Nat → Nat → Sys Bool
  | 0, _ => Sys.outOfRounds
  | rounds + 1, offset => do
      let buf1 ← Sys.read fd1 offset SimpleRsync.BUFFER_SIZE
      let buf2 ← Sys.read fd2 offset SimpleRsync.BUFFER_SIZE
      if buf1.map List.length ≠ buf2.map List.length then
        Sys.close fd1
        Sys.close fd2
        return false
      match buf1, buf2 with
      | some buf1, some buf2 =>
          if buf1 = [] then
            Sys.close fd1
            Sys.close fd2
            return true
          if buf1 ≠ buf2 then
            Sys.close fd1
            Sys.close fd2
            return false
          compareContents fd1 fd2 rounds (offset + buf1.length)
      | _, _ => Sys.undefined

def filesAreIdentical (file1 file2 : Bytes) : Sys Bool := do
  match ← Sys.stat file1 with
  | none => return false
  | some stat1 =>
      match ← Sys.stat file2 with
      | none => return false
      | some stat2 =>
          if stat1.size ≠ stat2.size then return false
          if stat1.mtime = stat2.mtime then return true
          let fd1 ← Sys.openRead file1
          let fd2 ← Sys.openRead file2
          match fd1, fd2 with
          | some fd1, some fd2 => compareContents fd1 fd2 (fd1.length + 1) 0
          | some fd1, none =>
              Sys.close fd1
              return false
          | none, some fd2 =>
              Sys.close fd2
              return false
          | none, none => return false

/-- For the empty path the function reads the byte in front of its buffer. -/
def createDirectoryRecursive (path : Bytes) : Sys Int := do
  let tmp := path.take (MAX_PATH_LEN - 1)
  if tmp = [] then
    Sys.undefined
  else
    let tmp := if tmp.getLast? = some Path.SLASH then tmp.dropLast else tmp
    if ← mkdirs (slashPrefixes tmp ++ [tmp]) then return 0
    return -1

/-- What `dirname` leaves in its argument. It returns a pointer to another string
when there is no slash to cut at, but the result is not looked at. -/
def dirname (path : Bytes) : Bytes :=
  let trimmed := trimSlashes path
  if trimmed = [] then
    if path.length = 2 then [Path.SLASH, Path.SLASH] else path.take 1
  else
    match beforeLastSlash trimmed with
    | none => path
    | some front =>
        let trimmedFront := trimSlashes front
        if trimmedFront = [] then
          if front.length = 1 then [Path.SLASH, Path.SLASH] else [Path.SLASH]
        else trimmedFront

/-- The test of `sync_file` whether there is something to do. -/
def destinationIsIdentical (srcPath dstPath : Bytes) : Sys Bool := do
  match ← Sys.stat dstPath with
  | none => return false
  | some _ => filesAreIdentical srcPath dstPath

/-- The part of `sync_file` that copies. `strncpy` does not end a copy that fills
its buffer. -/
def copyFile (srcPath dstPath : Bytes) : Sys Int := do
  if dstPath.length ≥ MAX_PATH_LEN then
    Sys.undefined
  else
    if (← createDirectoryRecursive (dirname dstPath)) = -1 then return -1
    if (← copyFileData srcPath dstPath) = -1 then return -1
    if (← copyFileAttributes srcPath dstPath) = -1 then return -1
    return 0

def syncFile (srcPath dstPath : Bytes) (dryRun : Bool) : Sys Int := do
  match ← Sys.stat srcPath with
  | none => return -1
  | some _ =>
      if ← destinationIsIdentical srcPath dstPath then return 0
      if dryRun then
        Sys.report srcPath dstPath
        return 0
      copyFile srcPath dstPath

/-- The loop of `sync_directory` over the entries, up to one that fails. -/
def syncEntries (visit : Bytes → Sys Int) : List Bytes → Sys Int
  | [] => return 0
  | name :: names => do
      if (← visit name) = -1 then return -1
      syncEntries visit names

/-- `sync_directory`, with a bound on its depth. -/
def syncDirectory (dryRun : Bool) : Nat → Bytes → Bytes → Sys Int
  | 0, _, _ => Sys.tooDeep
  | depth + 1, srcDir, dstDir => do
      match ← Sys.readDirectory srcDir with
      | none => return -1
      | some names =>
          syncEntries (fun name => do
            if name = Path.DOT ∨ name = Path.DOTDOT then return 0
            let srcPath := joinPath SimpleRsync.JOIN_LIMIT srcDir name
            let dstPath := joinPath SimpleRsync.JOIN_LIMIT dstDir name
            match ← Sys.stat srcPath with
            | none => return 0
            | some statbuf =>
                if statbuf.isDirectory then
                  Sys.descend srcDir srcPath
                  syncDirectory dryRun depth srcPath dstPath
                else
                  Sys.handing srcDir name srcPath dstPath
                  syncFile srcPath dstPath dryRun) names

end Apue.Sync.SimpleRsync
