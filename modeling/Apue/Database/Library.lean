import Apue.Foundation.ByteFile
import Apue.Foundation.Program

/-! # The database library

The functions of `db/db.c` as programs. The calls that other processes can
notice are the steps: reading, writing and locking a file. `lseek` only moves
the file offset of the process itself, except with `SEEK_END`, which looks at
the size of the file. `err_dump` and `err_quit` end the process. The counters of
the `DB` structure are left out; nothing reads them.
-/

namespace Apue.Database

open Apue.Foundation Ascii

/-! ## Constants -/

def IDXLEN_SZ : Nat := 4

def SEP : Byte := 58

def SPACE : Byte := 32

def NEWLINE : Byte := 10

def PTR_SZ : Nat := 7

def PTR_MAX : Nat := 9999999

def NHASH_DEF : Nat := 137

def FREE_OFF : Nat := 0

def HASH_OFF : Nat := PTR_SZ

def IDXLEN_MIN : Nat := 6

def IDXLEN_MAX : Nat := 1024

def DATLEN_MIN : Nat := 2

def DATLEN_MAX : Nat := 1024

def DB_INSERT : Int := 1

def DB_REPLACE : Int := 2

def DB_STORE : Int := 3

/-! ## Calls of the operating system -/

inductive File
  | idx
  | dat
  deriving DecidableEq

inductive LockKind
  | read
  | write
  deriving DecidableEq

/-- The places at which the library ends the process. -/
inductive Failure
  | lseek
  | readptrRead
  | readidxReadv
  | readidxIndexLength
  | readidxRead
  | readidxNewline
  | readidxFirstSeparator
  | readidxSecondSeparator
  | readidxTooManySeparators
  | readidxOffset
  | readidxDataLength
  | readdatRead
  | readdatNewline
  | writeidxPointer
  | writeidxLength
  | writeptrPointer
  | storeDataLength
  | loopBound
  deriving DecidableEq

/-- The failures by which the library refuses what its files cannot hold. The
others report a file that is not as the library left it. -/
def Failure.isLimit : Failure → Bool
  | .writeidxPointer | .writeidxLength | .writeptrPointer | .storeDataLength => true
  | _ => false

/-- A call of the library, as its user makes it. -/
inductive Call
  | store (key data : CString) (flag : Int)
  | delete (key : CString)
  | fetch (key : CString)

inductive Return
  | code (value : Int)
  | data (value : Option Bytes)
  deriving DecidableEq

/-- `invoke` and `respond` mark where a call of the library begins and ends. A
length of 0 in a lock means to the end of the file and beyond. -/
inductive Command
  | open (file : File) (truncate : Bool)
  | size (file : File)
  | read (file : File) (offset count : Nat)
  | write (file : File) (offset : Nat) (text : Bytes)
  | lock (file : File) (kind : LockKind) (start length : Nat)
  | unlock (file : File) (start length : Nat)
  | exit (failure : Failure)
  | invoke (call : Call)
  | respond (result : Return)

abbrev Response : Command → Type
  | .size _ => Nat
  | .read _ _ _ => Bytes
  | .exit _ => Empty
  | _ => Unit

/-! ## The `DB` structure -/

/-- `idxbuf` and `datbuf` are the strings in the buffers, up to their NUL byte;
`idxPosition` and `datPosition` are the offsets of the two descriptors. -/
structure DB where
  idxbuf : Bytes
  datbuf : Bytes
  idxoff : Int
  idxlen : Nat
  datoff : Int
  datlen : Nat
  ptrval : Int
  ptroff : Int
  chainoff : Int
  idxPosition : Nat
  datPosition : Nat
  deriving DecidableEq

/-- `_db_alloc` clears the structure. -/
def dbAlloc : DB where
  idxbuf := []
  datbuf := []
  idxoff := 0
  idxlen := 0
  datoff := 0
  datlen := 0
  ptrval := 0
  ptroff := 0
  chainoff := 0
  idxPosition := 0
  datPosition := 0

abbrev Library : Type → Type := StateT DB (Program Command Response)

def perform (command : Command) : Library (Response command) :=
  fun db => .call command fun response => .done (response, db)

def fail {Result : Type} (failure : Failure) : Library Result :=
  fun _ => .call (.exit failure) fun never : Empty => nomatch never

def lseekIdx (offset : Int) : Library Unit := do
  if offset < 0 then fail .lseek
  modify fun db => { db with idxPosition := offset.toNat }

def lseekDat (offset : Int) : Library Unit := do
  if offset < 0 then fail .lseek
  modify fun db => { db with datPosition := offset.toNat }

def readIdx (count : Nat) : Library Bytes := do
  let text : Bytes ← perform (.read .idx (← get).idxPosition count)
  modify fun db => { db with idxPosition := db.idxPosition + text.length }
  return text

def readDat (count : Nat) : Library Bytes := do
  let text : Bytes ← perform (.read .dat (← get).datPosition count)
  modify fun db => { db with datPosition := db.datPosition + text.length }
  return text

def writeIdx (text : Bytes) : Library Unit := do
  perform (.write .idx (← get).idxPosition text)
  modify fun db => { db with idxPosition := db.idxPosition + text.length }

def writeDat (text : Bytes) : Library Unit := do
  perform (.write .dat (← get).datPosition text)
  modify fun db => { db with datPosition := db.datPosition + text.length }

/-! ## The internal functions -/

/-- `char` is signed, and `DBHASH` has 64 bits. -/
def dbHash (key : Bytes) : Nat :=
  let hval := (key.zipIdx 1).foldl (fun (hval : Int) pair =>
    (hval + pair.1.toBitVec.toInt * (pair.2 : Int)) % 18446744073709551616) 0
  hval.toNat % NHASH_DEF

def dbReadptr (offset : Int) : Library Int := do
  lseekIdx offset
  let asciiptr ← readIdx PTR_SZ
  if asciiptr.length ≠ PTR_SZ then fail .readptrRead
  return atol asciiptr

/-- A text in front of a separator and behind it; `none` when it has none. -/
def splitSep (text : Bytes) : Option (Bytes × Bytes) :=
  match text.dropWhile (· ≠ SEP) with
  | [] => none
  | _ :: rest => some (text.takeWhile (· ≠ SEP), rest)

/-- Offset 0 means the current offset. -/
def dbReadidx (offset : Int) : Library Int := do
  if offset = 0 then
    modify fun db => { db with idxoff := db.idxPosition }
  else
    lseekIdx offset
    modify fun db => { db with idxoff := offset }
  let front ← readIdx (PTR_SZ + IDXLEN_SZ)
  if front.length ≠ PTR_SZ + IDXLEN_SZ then
    if front.length = 0 ∧ offset = 0 then return -1
    fail .readidxReadv
  modify fun db => { db with ptrval := atol (front.take PTR_SZ) }
  let idxlen := atol (front.drop PTR_SZ)
  if idxlen < IDXLEN_MIN ∨ idxlen > IDXLEN_MAX then fail .readidxIndexLength
  modify fun db => { db with idxlen := idxlen.toNat }
  let buffer ← readIdx idxlen.toNat
  if buffer.length ≠ idxlen.toNat then fail .readidxRead
  if buffer.getLast? ≠ some NEWLINE then fail .readidxNewline
  match splitSep (cString buffer.dropLast) with
  | none => fail .readidxFirstSeparator
  | some (key, ptr1) =>
      match splitSep ptr1 with
      | none => fail .readidxSecondSeparator
      | some (datoff, ptr2) =>
          if SEP ∈ ptr2 then fail .readidxTooManySeparators
          if atol datoff < 0 then fail .readidxOffset
          if atol ptr2 ≤ 0 ∨ atol ptr2 > DATLEN_MAX then fail .readidxDataLength
          modify fun db =>
            { db with
              idxbuf := key
              datoff := atol datoff
              datlen := (atol ptr2).toNat }
          return (← get).ptrval

def dbReaddat : Library Bytes := do
  lseekDat (← get).datoff
  let datlen := (← get).datlen
  let buffer ← readDat datlen
  if buffer.length ≠ datlen then fail .readdatRead
  if buffer.getLast? ≠ some NEWLINE then fail .readdatNewline
  modify fun db => { db with datbuf := cString buffer.dropLast }
  return (← get).datbuf

/-- The search of `_db_find_and_lock`, with a bound on the records it looks at;
the result is 0 when the key is not there. -/
def findKey (key : Bytes) : Nat → Int → Library Int
  | 0, _ => fail .loopBound
  | bound + 1, offset => do
      if offset = 0 then
        return 0
      let nextoffset ← dbReadidx offset
      if (← get).idxbuf = key then
        return offset
      modify fun db => { db with ptroff := offset }
      findKey key bound nextoffset

def dbFindAndLock (key : Bytes) (writelock : Bool) : Library Int := do
  modify fun db => { db with chainoff := (dbHash key * PTR_SZ + HASH_OFF : Nat) }
  modify fun db => { db with ptroff := db.chainoff }
  let kind := if writelock then LockKind.write else LockKind.read
  perform (.lock .idx kind (← get).chainoff.toNat 1)
  let offset ← dbReadptr (← get).ptroff
  let offset ← findKey key (PTR_MAX + 1) offset
  return if offset = 0 then -1 else 0

/-- Where a write begins: a given offset, or the end of the file. -/
inductive Whence
  | set (offset : Int)
  | append

def dbWritedat (data : Bytes) (whence : Whence) : Library Unit := do
  match whence with
  | .append =>
      perform (.lock .dat .write 0 0)
      let size : Nat ← perform (.size .dat)
      lseekDat size
      modify fun db => { db with datoff := size }
  | .set offset =>
      lseekDat offset
      modify fun db => { db with datoff := offset }
  modify fun db => { db with datlen := data.length + 1 }
  writeDat (data ++ [NEWLINE])
  match whence with
  | .append => perform (.unlock .dat 0 0)
  | .set _ => return ()

/-- What `sprintf` prints for the fields of an index record. -/
def printInt (value : Int) : Bytes :=
  if value < 0 then 45 :: decimal value.natAbs else decimal value.natAbs

/-- `_db_dodelete` passes `idxbuf` itself as the key. `sprintf` then copies the
string onto itself, before it writes behind it. A key that does not fit in the
buffer gives a record that is too long, and so ends the process. -/
def dbWriteidx (key : Bytes) (whence : Whence) (ptrval : Int) : Library Unit := do
  modify fun db => { db with ptrval := ptrval }
  if ptrval < 0 ∨ ptrval > PTR_MAX then fail .writeidxPointer
  modify fun db =>
    { db with
      idxbuf := key ++ SEP :: printInt db.datoff ++ SEP :: decimal db.datlen ++ [NEWLINE] }
  let text := (← get).idxbuf
  if text.length < IDXLEN_MIN ∨ text.length > IDXLEN_MAX then fail .writeidxLength
  let asciiptrlen := padLeft PTR_SZ (printInt ptrval) ++ padLeft IDXLEN_SZ (decimal text.length)
  match whence with
  | .append =>
      perform (.lock .idx .write ((NHASH_DEF + 1) * PTR_SZ + 1) 0)
      let size : Nat ← perform (.size .idx)
      lseekIdx size
      modify fun db => { db with idxoff := size }
  | .set offset =>
      lseekIdx offset
      modify fun db => { db with idxoff := offset }
  writeIdx (asciiptrlen ++ text)
  match whence with
  | .append => perform (.unlock .idx ((NHASH_DEF + 1) * PTR_SZ + 1) 0)
  | .set _ => return ()

def dbWriteptr (offset ptrval : Int) : Library Unit := do
  if ptrval < 0 ∨ ptrval > PTR_MAX then fail .writeptrPointer
  lseekIdx offset
  writeIdx (padLeft PTR_SZ (printInt ptrval))

def dbDodelete : Library Unit := do
  modify fun db => { db with datbuf := List.replicate (db.datlen - 1) SPACE }
  modify fun db => { db with idxbuf := db.idxbuf.map fun _ => SPACE }
  perform (.lock .idx .write FREE_OFF 1)
  dbWritedat (← get).datbuf (.set (← get).datoff)
  let freeptr ← dbReadptr FREE_OFF
  let saveptr := (← get).ptrval
  dbWriteidx (← get).idxbuf (.set (← get).idxoff) freeptr
  dbWriteptr FREE_OFF (← get).idxoff
  dbWriteptr (← get).ptroff saveptr
  perform (.unlock .idx FREE_OFF 1)

/-- The search of `_db_findfree`; the result is the offset of the record and of
the pointer to it. -/
def findSizes (keylen datlen : Nat) : Nat → Int → Int → Library (Int × Int)
  | 0, _, _ => fail .loopBound
  | bound + 1, saveoffset, offset => do
      if offset = 0 then
        return (0, saveoffset)
      let nextoffset ← dbReadidx offset
      if (← get).idxbuf.length = keylen ∧ (← get).datlen = datlen then
        return (offset, saveoffset)
      findSizes keylen datlen bound offset nextoffset

def dbFindfree (keylen datlen : Nat) : Library Int := do
  perform (.lock .idx .write FREE_OFF 1)
  let first ← dbReadptr FREE_OFF
  let (offset, saveoffset) ← findSizes keylen datlen (PTR_MAX + 1) FREE_OFF first
  let rc : Int ←
    if offset = 0 then
      pure (-1)
    else do
      dbWriteptr saveoffset (← get).ptrval
      pure 0
  perform (.unlock .idx FREE_OFF 1)
  return rc

/-! ## The calls -/

def dbFetch (key : Bytes) : Library (Option Bytes) := do
  let found ← dbFindAndLock key false
  let result ←
    if found < 0 then
      pure none
    else do
      let data ← dbReaddat
      pure (some data)
  perform (.unlock .idx (← get).chainoff.toNat 1)
  return result

def dbDelete (key : Bytes) : Library Int := do
  let found ← dbFindAndLock key true
  let rc : Int ←
    if found = 0 then do
      dbDodelete
      pure 0
    else
      pure (-1)
  perform (.unlock .idx (← get).chainoff.toNat 1)
  return rc

/-- The end of `db_store` for a record that goes to the ends of the files and to
the front of its hash chain. -/
def storeAppend (key data : Bytes) (ptrval : Int) : Library Unit := do
  dbWritedat data .append
  dbWriteidx key .append ptrval
  dbWriteptr (← get).chainoff (← get).idxoff

/-- The same for a record that takes the place of an empty one. -/
def storeReuse (key data : Bytes) (ptrval : Int) : Library Unit := do
  dbWritedat data (.set (← get).datoff)
  dbWriteidx key (.set (← get).idxoff) ptrval
  dbWriteptr (← get).chainoff (← get).idxoff

/-- `db_store` when the key is not there. -/
def storeAbsent (key data : Bytes) (flag : Int) : Library Int := do
  if flag = DB_REPLACE then
    return -1
  let ptrval ← dbReadptr (← get).chainoff
  let found ← dbFindfree key.length (data.length + 1)
  if found < 0 then
    storeAppend key data ptrval
  else
    storeReuse key data ptrval
  return 0

/-- `db_store` when the key is there. -/
def storePresent (key data : Bytes) (flag : Int) : Library Int := do
  if flag = DB_INSERT then
    return 1
  if data.length + 1 ≠ (← get).datlen then
    dbDodelete
    let ptrval ← dbReadptr (← get).chainoff
    storeAppend key data ptrval
  else
    dbWritedat data (.set (← get).datoff)
  return 0

def dbStore (key data : Bytes) (flag : Int) : Library Int := do
  if flag ≠ DB_INSERT ∧ flag ≠ DB_REPLACE ∧ flag ≠ DB_STORE then
    return -1
  if data.length + 1 < DATLEN_MIN ∨ data.length + 1 > DATLEN_MAX then
    fail .storeDataLength
  let found ← dbFindAndLock key true
  let rc ← if found < 0 then storeAbsent key data flag else storePresent key data flag
  perform (.unlock .idx (← get).chainoff.toNat 1)
  return rc

def dbRewind : Library Unit := do
  lseekIdx ((NHASH_DEF + 1) * PTR_SZ + 1 : Nat)
  modify fun db => { db with idxoff := ((NHASH_DEF + 1) * PTR_SZ + 1 : Nat) }

/-- `db_open` once both files can be opened, with `O_TRUNC` or without, and with
`O_CREAT` or without. -/
def dbOpen (create truncate : Bool) : Library Unit := do
  perform (.open .idx truncate)
  perform (.open .dat truncate)
  if create && truncate then
    perform (.lock .idx .write 0 0)
    let size : Nat ← perform (.size .idx)
    if size = 0 then
      let asciiptr := padLeft PTR_SZ (decimal 0)
      writeIdx ((List.replicate (NHASH_DEF + 1) asciiptr).flatten ++ [NEWLINE])
    perform (.unlock .idx 0 0)
  dbRewind

/-- The loop of `db_nextrec`, with a bound on the records it passes over; the
result tells whether there is a record with a key that is not all blank. -/
def nextNonblank : Nat → Library Bool
  | 0 => fail .loopBound
  | bound + 1 => do
      if (← dbReadidx 0) < 0 then
        return false
      if (← get).idxbuf.all (· == SPACE) then
        nextNonblank bound
      else
        return true

/-- `db_nextrec` with the key that it copies for its caller. -/
def dbNextrec : Library (Option (Bytes × Bytes)) := do
  perform (.lock .idx .read FREE_OFF 1)
  let found ← nextNonblank (PTR_MAX + 1)
  let result ←
    if found then do
      let key := (← get).idxbuf
      let data ← dbReaddat
      pure (some (key, data))
    else
      pure none
  perform (.unlock .idx FREE_OFF 1)
  return result

def Call.execute : Call → Library Return
  | .store key data flag => do return .code (← dbStore key.1 data.1 flag)
  | .delete key => do return .code (← dbDelete key.1)
  | .fetch key => do return .data (← dbFetch key.1)

/-- The calls that one process makes, one after the other. -/
def runCalls : List Call → Library (List Return)
  | [] => return []
  | call :: calls => do
      perform (.invoke call)
      let result ← call.execute
      perform (.respond result)
      let results ← runCalls calls
      return result :: results

end Apue.Database
