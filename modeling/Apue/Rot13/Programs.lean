import Apue.Foundation.Always
import Apue.Foundation.ByteFile
import Mathlib.Data.List.FinRange

/-! # The rot13 filters of `advio`

`rot13a` copies block after block. `rot13c2` has up to eight blocks under way,
whose asynchronous reads and writes complete in any order.
-/

namespace Apue.Rot13

open Apue.Foundation

def BSZ : Nat := 4096

abbrev NBUF : Nat := 8

abbrev Buffer : Type := Fin NBUF

def isalpha (c : Byte) : Bool := (65 ≤ c && c ≤ 90) || (97 ≤ c && c ≤ 122)

def translate (c : Byte) : Byte :=
  if isalpha c then
    if 110 ≤ c then c - 13
    else if 97 ≤ c then c + 13
    else if 78 ≤ c then c - 13
    else c + 13
  else c

/-! ## The calls -/

inductive Opcode
  | read
  | write
  deriving DecidableEq

/-- The file that a descriptor was opened on stands for the descriptor. -/
structure Aiocb where
  aio_fildes : String
  aio_offset : Nat
  aio_nbytes : Nat

/-- An asynchronous transfer. It has no result while it is in progress. -/
structure Request where
  opcode : Opcode
  aiocb : Aiocb
  result : Option Nat

/-- The files with the offsets of their descriptors, the memory of the buffers and
their requests, and a history: how often a transfer has completed at an offset. -/
structure System where
  files : String → Option Bytes
  position : String → Nat
  data : Buffer → Bytes
  requests : Buffer → Option Request
  made : Opcode → Nat → Nat

def EINPROGRESS : Int := 115

inductive Call
  /-- `open` with `O_RDONLY` -/
  | openRead (path : String)
  /-- `open` with `O_RDWR|O_CREAT|O_TRUNC` -/
  | openWrite (path : String)
  | fstat (fd : String)
  | read (fd : String) (count : Nat)
  | write (fd : String) (text : Bytes)
  | fsync (fd : String)
  | getData (buffer : Buffer)
  | setData (buffer : Buffer) (data : Bytes)
  | aio_read (buffer : Buffer) (aiocb : Aiocb)
  | aio_write (buffer : Buffer) (aiocb : Aiocb)
  | aio_error (buffer : Buffer)
  | aio_return (buffer : Buffer)
  | aio_suspend (list : Buffer → Bool)
  | aio_fsync (buffer : Buffer) (aiocb : Aiocb)
  | err_sys (message : String)
  | err_quit (message : String)
  | err_exit (error : Int) (message : String)
  /-- A loop does not end within its bound. -/
  | outOfRounds

/-- `none` and `false` are the failures of a call. -/
@[reducible] def Response : Call → Type
  | .openRead _ | .openWrite _ => Option String
  | .fstat _ | .write _ _ | .aio_return _ => Option Nat
  | .read _ _ => Option Bytes
  | .getData _ => Bytes
  | .fsync _ | .setData _ _ => Unit
  | .aio_read _ _ | .aio_write _ _ | .aio_suspend _ | .aio_fsync _ _ => Bool
  | .aio_error _ => Int
  | .err_sys _ | .err_quit _ | .err_exit _ _ | .outOfRounds => Empty

abbrev Code : Type → Type := Program Call Response

def System.setFile (system : System) (path : String) (text : Bytes) : System :=
  { system with files := Function.update system.files path (some text) }

def System.setData (system : System) (buffer : Buffer) (text : Bytes) : System :=
  { system with data := Function.update system.data buffer text }

def System.setRequest (system : System) (buffer : Buffer) (request : Option Request) : System :=
  { system with requests := Function.update system.requests buffer request }

def System.setPosition (system : System) (fd : String) (position : Nat) : System :=
  { system with position := Function.update system.position fd position }

/-- What a buffer's request has returned, once it is complete. -/
def System.result (system : System) (buffer : Buffer) : Option Nat :=
  system.requests buffer >>= Request.result

def System.submit (system : System) (buffer : Buffer) (opcode : Opcode) (aiocb : Aiocb) :
    Option (Bool × System) :=
  match system.requests buffer with
  | none => some (true, system.setRequest buffer (some ⟨opcode, aiocb, none⟩))
  | some _ => none

/-- What a call does when it succeeds; `none` while it has to wait, and where POSIX
leaves open what it does. -/
def perform : (call : Call) → System → Option (Response call × System)
  | .openRead path, system => (system.files path).map fun _ => (some path, system.setPosition path 0)
  | .openWrite path, system => some (some path, (system.setFile path []).setPosition path 0)
  | .fstat fd, system => (system.files fd).map fun text => (some text.length, system)
  | .read fd count, system => (system.files fd).map fun text =>
      let bytes := pread text (system.position fd) count
      (some bytes, system.setPosition fd (system.position fd + bytes.length))
  | .write fd bytes, system => (system.files fd).map fun text =>
      (some bytes.length, (system.setFile fd (pwrite text (system.position fd) bytes)).setPosition fd
        (system.position fd + bytes.length))
  | .fsync _, system => some ((), system)
  | .getData buffer, system => some (system.data buffer, system)
  | .setData buffer data, system => some ((), system.setData buffer data)
  | .aio_read buffer aiocb, system => system.submit buffer .read aiocb
  | .aio_write buffer aiocb, system => system.submit buffer .write aiocb
  | .aio_error buffer, system => (system.requests buffer).map fun request =>
      (if request.result = none then EINPROGRESS else 0, system)
  | .aio_return buffer, system => (system.result buffer).map fun n =>
      (some n, system.setRequest buffer none)
  | .aio_suspend list, system =>
      if ∃ buffer, list buffer = true ∧ system.result buffer ≠ none then some (true, system) else none
  | .aio_fsync _ _, system => some (true, system)
  | .err_sys _, _ | .err_quit _, _ | .err_exit _ _, _ | .outOfRounds, _ => none

def System.count (system : System) (opcode : Opcode) (offset : Nat) : System :=
  let made := system.made opcode
  { system with
    made := Function.update system.made opcode (Function.update made offset (made offset + 1)) }

/-- The transfer of a buffer is carried out and completes. -/
def complete (buffer : Buffer) (system : System) : Option System := do
  let request ← system.requests buffer
  if request.result ≠ none then none
  let aiocb := request.aiocb
  let text ← system.files aiocb.aio_fildes
  let system := system.count request.opcode aiocb.aio_offset
  match request.opcode with
  | .read =>
      let bytes := pread text aiocb.aio_offset aiocb.aio_nbytes
      return (system.setData buffer (pwrite (system.data buffer) 0 bytes)).setRequest buffer
        (some { request with result := some bytes.length })
  | .write =>
      let bytes := (system.data buffer).take aiocb.aio_nbytes
      return (system.setFile aiocb.aio_fildes (pwrite text aiocb.aio_offset bytes)).setRequest buffer
        (some { request with result := some bytes.length })

def err_sys {Result : Type} (message : String) : Code Result := .call (.err_sys message) nofun

def err_quit {Result : Type} (message : String) : Code Result := .call (.err_quit message) nofun

def err_exit {Result : Type} (error : Int) (message : String) : Code Result :=
  .call (.err_exit error message) nofun

def outOfRounds {Result : Type} : Code Result := .call .outOfRounds nofun

/-! ## The sequential program -/

namespace Rot13a

/-- The loop of `main`, with a bound on its rounds. A failed read ends it, too. -/
def copyLoop (ifd ofd : String) : Nat → Code Unit
  | 0 => outOfRounds
  | rounds + 1 => do
      let n ← Program.perform (Call.read ifd BSZ)
      match n with
      | none | some [] => return ()
      | some buf =>
          let nw ← Program.perform (Call.write ofd (buf.map translate))
          if nw ≠ some buf.length then
            match nw with
            | none => err_sys "write failed"
            | some nw =>
                let n := buf.length
                err_quit s!"short write ({nw}/{n})"
          else
            copyLoop ifd ofd rounds

def main (rounds : Nat) (argv : List String) : Code Unit :=
  match argv with
  | [_, infile, outfile] => do
      let some ifd ← Program.perform (Call.openRead infile) | err_sys s!"can't open {infile}"
      let some ofd ← Program.perform (Call.openWrite outfile) | err_sys s!"can't create {outfile}"
      copyLoop ifd ofd rounds
      Program.perform (Call.fsync ofd)
  | _ => err_quit "usage: rot13 infile outfile"

end Rot13a

/-! ## The asynchronous program -/

namespace Rot13c2

inductive Rwop
  | UNUSED
  | READ_PENDING
  | WRITE_PENDING
  deriving DecidableEq

/-- A buffer without its data, which the kernel shares. -/
structure Buf where
  op : Rwop
  last : Bool
  aiocb : Aiocb

structure Locals where
  bufs : Buffer → Buf
  aiolist : Buffer → Bool
  off : Nat
  numop : Nat

def Locals.setBuf (locals : Locals) (i : Buffer) (buf : Buf) : Locals :=
  { locals with bufs := Function.update locals.bufs i buf }

/-- Read from the input file if more data remains unread. -/
def startRead (st_size : Nat) (ifd : String) (locals : Locals) (i : Buffer) : Code Locals :=
  if locals.off < st_size then do
    let off := locals.off + BSZ
    let buf : Buf := {
      op := .READ_PENDING
      last := (locals.bufs i).last || decide (off ≥ st_size)
      aiocb := ⟨ifd, locals.off, BSZ⟩ }
    let started ← Program.perform (Call.aio_read i buf.aiocb)
    if started then
      return { locals.setBuf i buf with
        off := off
        aiolist := Function.update locals.aiolist i true
        numop := locals.numop + 1 }
    else
      err_sys "aio_read failed"
  else return locals

/-- A read is complete; translate the buffer and write it. -/
def startWrite (ofd : String) (locals : Locals) (i : Buffer) : Code Locals := do
  let some n ← Program.perform (Call.aio_return i) | err_sys "aio_return failed"
  if n ≠ BSZ ∧ (locals.bufs i).last = false then
    err_quit s!"short read ({n}/{BSZ})"
  else
    let data ← Program.perform (Call.getData i)
    Program.perform (Call.setData i ((data.take n).map translate ++ data.drop n))
    let buf : Buf := { locals.bufs i with
      op := .WRITE_PENDING
      aiocb := { (locals.bufs i).aiocb with aio_fildes := ofd, aio_nbytes := n } }
    let started ← Program.perform (Call.aio_write i buf.aiocb)
    if started then return locals.setBuf i buf else err_sys "aio_write failed"

/-- A write is complete; mark the buffer as unused. -/
def endWrite (locals : Locals) (i : Buffer) : Code Locals := do
  let some n ← Program.perform (Call.aio_return i) | err_sys "aio_return failed"
  if n ≠ (locals.bufs i).aiocb.aio_nbytes then
    err_quit s!"short write ({n}/{BSZ})"
  else
    return { locals.setBuf i { locals.bufs i with op := .UNUSED } with
      aiolist := Function.update locals.aiolist i false
      numop := locals.numop - 1 }

/-- Go on when the request of a buffer is complete. -/
def whenComplete (failed : String) (locals : Locals) (i : Buffer) (next : Code Locals) :
    Code Locals := do
  let err ← Program.perform (Call.aio_error i)
  if err = EINPROGRESS then return locals
  else if err ≠ 0 then
    if err = -1 then err_sys "aio_error failed" else err_exit err failed
  else next

/-- The switch on the state of a buffer. -/
def service (st_size : Nat) (ifd ofd : String) (locals : Locals) (i : Buffer) : Code Locals :=
  match (locals.bufs i).op with
  | .UNUSED => startRead st_size ifd locals i
  | .READ_PENDING => whenComplete "read failed" locals i (startWrite ofd locals i)
  | .WRITE_PENDING => whenComplete "write failed" locals i (endWrite locals i)

/-- The loop of `main`, with a bound on its rounds. -/
def mainLoop (st_size : Nat) (ifd ofd : String) : Nat → Locals → Code Locals
  | 0, _ => outOfRounds
  | rounds + 1, locals => do
      let locals ← (List.finRange NBUF).foldlM (service st_size ifd ofd) locals
      if locals.numop = 0 then
        if locals.off ≥ st_size then return locals else mainLoop st_size ifd ofd rounds locals
      else
        let ended ← Program.perform (Call.aio_suspend locals.aiolist)
        if ended then mainLoop st_size ifd ofd rounds locals else err_sys "aio_suspend failed"

/-- The global buffers are zero at first. -/
def initial : Locals where
  bufs := fun _ => ⟨.UNUSED, false, ⟨"", 0, 0⟩⟩
  aiolist := fun _ => false
  off := 0
  numop := 0

def main (rounds : Nat) (argv : List String) : Code Unit :=
  match argv with
  | [_, infile, outfile] => do
      let some ifd ← Program.perform (Call.openRead infile) | err_sys s!"can't open {infile}"
      let some ofd ← Program.perform (Call.openWrite outfile) | err_sys s!"can't create {outfile}"
      let some st_size ← Program.perform (Call.fstat ifd) | err_sys "fstat failed"
      let locals ← mainLoop st_size ifd ofd rounds initial
      let synced ← Program.perform (Call.aio_fsync 0 { (locals.bufs 0).aiocb with aio_fildes := ofd })
      if synced then return () else err_sys "aio_fsync failed"
  | _ => err_quit "usage: rot13 infile outfile"

end Rot13c2

end Apue.Rot13
