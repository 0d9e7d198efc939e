import Apue.Foundation.Always
import Apue.Printer.JobNumbers
import Apue.Printer.JobQueue

/-! # The submission of a print job

`client_thread` of `printer/printd.c` takes a request and a file from a client, stores
both in the spool directory, answers the client and queues the job. Lines for the log are
left out. The numbers in the messages are those of a host that stores the least
significant byte first.
-/

namespace Apue.Printer.Submission

open Apue.Foundation Ascii
open JobNumbers (printInt toInt32 FILENMSZ)

def SPOOLDIR : Bytes := text "/var/spool/printer"

def DATADIR : Bytes := text "data"

def REQDIR : Bytes := text "reqs"

def USERNM_MAX : Nat := 64

def JOBNM_MAX : Nat := 256

def MSGLEN_MAX : Nat := 512

def IOBUFSZ : Nat := 8192

def EIO : Nat := 5

def PR_TEXT : Nat := 1

/-! ## Messages -/

def uint32Bytes (value : Nat) : Bytes :=
  [UInt8.ofNat value, UInt8.ofNat (value / 256), UInt8.ofNat (value / 65536),
    UInt8.ofNat (value / 16777216)]

/-- The number in four bytes of a text. -/
def uint32At (bytes : Bytes) (index : Nat) : Nat :=
  (bytes.getD index 0).toNat + 256 * (bytes.getD (index + 1) 0).toNat +
    65536 * (bytes.getD (index + 2) 0).toNat + 16777216 * (bytes.getD (index + 3) 0).toNat

/-- The bytes of a number the other way round. -/
def htonl (value : Nat) : Nat :=
  value % 256 * 16777216 + value / 256 % 256 * 65536 + value / 65536 % 256 * 256 +
    value / 16777216 % 256

def ntohl (value : Nat) : Nat := htonl value

/-- A number as it is stored in a `uint32_t`. -/
def toUint32 (value : Int) : Nat := (value % 4294967296).toNat

structure PrintReq where
  size : Nat
  flags : Nat
  usernm : Bytes
  jobnm : Bytes
  usernmSize : usernm.length = USERNM_MAX
  jobnmSize : jobnm.length = JOBNM_MAX

structure PrintResp where
  retcode : Nat
  jobid : Nat
  msg : Bytes

/-- `sizeof(struct printreq)` -/
def PRINTREQ_SIZE : Nat := 328

def PrintReq.bytes (req : PrintReq) : Bytes :=
  uint32Bytes req.size ++ uint32Bytes req.flags ++ req.usernm ++ req.jobnm

theorem PrintReq.bytes_length (req : PrintReq) : req.bytes.length = PRINTREQ_SIZE := by
  rw [PrintReq.bytes, List.length_append, List.length_append, List.length_append, req.usernmSize,
    req.jobnmSize]
  rfl

/-- The request that is read from the socket. -/
def PrintReq.ofBytes (bytes : Bytes) (whole : bytes.length = PRINTREQ_SIZE) : PrintReq where
  size := uint32At bytes 0
  flags := uint32At bytes 4
  usernm := (bytes.drop 8).take USERNM_MAX
  jobnm := (bytes.drop 72).take JOBNM_MAX
  usernmSize := by
    rw [List.length_take, List.length_drop, whole]
    rfl
  jobnmSize := by
    rw [List.length_take, List.length_drop, whole]
    rfl

/-- `sprintf(name, "%s/%s/%d", SPOOLDIR, directory, jobid)` -/
def spoolName (directory : Bytes) (jobid : Int) : Bytes :=
  SPOOLDIR ++ text "/" ++ directory ++ text "/" ++ printInt jobid

/-! ## The thread -/

/-- An open file, and the name that it was created under. -/
structure Descriptor where
  number : Nat
  name : Bytes

inductive Call
  | addWorker
  | treadn (nbytes : Nat)
  | getNewjobno
  | creat (name : Bytes)
  | tread (nbytes : Nat)
  | write (fd : Descriptor) (text : Bytes)
  | close (fd : Descriptor)
  | unlink (name : Bytes)
  | writen (res : PrintResp)
  | addJob (req : PrintReq) (jobid : Int)
  /-- The loop does not end within its bound. -/
  | outOfRounds

/-- An error is the value of `errno`. -/
def Response : Call → Type
  | .addWorker => Bool
  | .treadn _ => Except Nat Bytes
  | .getNewjobno => Int
  | .creat _ => Except Nat Descriptor
  | .tread _ => Except Nat Bytes
  | .write _ _ => Except Nat Nat
  | .close _ => Unit
  | .unlink _ => Unit
  | .writen _ => Unit
  | .addJob _ _ => Unit
  | .outOfRounds => Empty

abbrev Thread : Type → Type := Program Call Response

namespace Thread

def addWorker : Thread Bool := .perform Call.addWorker

def treadn (nbytes : Nat) : Thread (Except Nat Bytes) := .perform (Call.treadn nbytes)

def getNewjobno : Thread Int := .perform Call.getNewjobno

def creat (name : Bytes) : Thread (Except Nat Descriptor) := .perform (Call.creat name)

def tread (nbytes : Nat) : Thread (Except Nat Bytes) := .perform (Call.tread nbytes)

def write (fd : Descriptor) (text : Bytes) : Thread (Except Nat Nat) := .perform (Call.write fd text)

def close (fd : Descriptor) : Thread Unit := .perform (Call.close fd)

def unlink (name : Bytes) : Thread Unit := .perform (Call.unlink name)

def writen (res : PrintResp) : Thread Unit := .perform (Call.writen res)

def addJob (req : PrintReq) (jobid : Int) : Thread Unit := .perform (Call.addJob req jobid)

def outOfRounds {Result : Type} : Thread Result :=
  .call Call.outOfRounds fun never : Empty => nomatch never

end Thread

section ClientThread

-- `stale` is what the buffer holds before anything is read into it.
variable (strerror : Nat → Bytes) (stale : Bytes)

/-- The answer to a client whose job is not accepted. -/
def refusal (code : Nat) : PrintResp where
  retcode := htonl code
  jobid := 0
  msg := (strerror (htonl code)).take MSGLEN_MAX

/-- The error of a call of `write` that has not written everything. -/
def writeError (nw : Except Nat Nat) (count : Nat) : Option Nat :=
  match nw with
  | .ok nw => if nw = count then none else some EIO
  | .error errno => some errno

/-- The flag for plain text, from the first bytes of the file. -/
def markText (first : Bool) (chunk : Bytes) (req : PrintReq) : PrintReq :=
  if first ∧ (chunk ++ stale.drop chunk.length).take 4 ≠ text "%!PS" then
    { req with flags := req.flags ||| PR_TEXT }
  else req

/-- The loop that stores the file, with a bound on its rounds. There is no request
behind it when the job was refused. -/
def receiveData (name : Bytes) (fd : Descriptor) : Nat → Bool → PrintReq → Thread (Option PrintReq)
  | 0, _, _ => Thread.outOfRounds
  | rounds + 1, first, req => do
      match ← Thread.tread IOBUFSZ with
      | .error _ => return some req
      | .ok [] => return some req
      | .ok chunk =>
          let req := markText stale first chunk req
          match writeError (← Thread.write fd chunk) chunk.length with
          | none => receiveData name fd rounds false req
          | some code =>
              Thread.close fd
              Thread.writen (refusal strerror code)
              Thread.unlink name
              return none

/-- What comes behind the data file: the request file, the answer and the queue. -/
def storeRequest (req : PrintReq) (jobid : Int) : Thread Unit := do
  let name := spoolName REQDIR jobid
  match ← Thread.creat name with
  | .error errno =>
      Thread.writen (refusal strerror errno)
      let name := spoolName DATADIR jobid
      Thread.unlink name
  | .ok fd =>
      match writeError (← Thread.write fd req.bytes) PRINTREQ_SIZE with
      | some code =>
          Thread.close fd
          Thread.writen (refusal strerror code)
          Thread.unlink name
          let name := spoolName DATADIR jobid
          Thread.unlink name
      | none =>
          Thread.close fd
          Thread.writen
            { retcode := 0, jobid := htonl (toUint32 jobid), msg := text "request ID " ++ printInt jobid }
          Thread.addJob req jobid

def clientThread (rounds : Nat) : Thread Unit := do
  if !(← Thread.addWorker) then return
  match ← Thread.treadn PRINTREQ_SIZE with
  | .error errno => Thread.writen (refusal strerror errno)
  | .ok bytes =>
      if whole : bytes.length = PRINTREQ_SIZE then do
        let req := PrintReq.ofBytes bytes whole
        let req := { req with size := ntohl req.size, flags := ntohl req.flags }
        let jobid ← Thread.getNewjobno
        let name := spoolName DATADIR jobid
        match ← Thread.creat name with
        | .error errno => Thread.writen (refusal strerror errno)
        | .ok fd =>
            match ← receiveData strerror stale name fd rounds true req with
            | none => return
            | some req =>
                Thread.close fd
                storeRequest strerror req jobid
      else Thread.writen (refusal strerror EIO)

end ClientThread

/-! ## The outcomes of the calls -/

/-- The spool directory, the pieces in which the rest of the client's data arrives, the
number that the job was given, the answers, and the queue. -/
structure Server where
  files : Bytes → Option Bytes
  incoming : List Bytes
  jobid : Option Int
  replies : List PrintResp
  jobs : JobQueue.Memory PrintReq
  added : Nat

/-- What `errno` is behind a call that has failed. -/
def IsError (errno : Nat) : Prop := 0 < errno ∧ errno < 2147483648

def IsInt32 (value : Int) : Prop := -2147483648 ≤ value ∧ value < 2147483648

inductive Outcomes : (call : Call) → Server → Response call → Server → Prop
  | addWorker (added : Bool) (before : Server) : Outcomes .addWorker before added before
  | treadn {nbytes : Nat} {bytes : Bytes} (before : Server) (within : bytes.length ≤ nbytes) :
      Outcomes (.treadn nbytes) before (.ok bytes : Except Nat Bytes) before
  | treadnFails {nbytes errno : Nat} (before : Server) (isError : IsError errno) :
      Outcomes (.treadn nbytes) before (.error errno : Except Nat Bytes) before
  | getNewjobno {jobid : Int} {before : Server} (isInt32 : IsInt32 jobid)
      (noData : before.files (spoolName DATADIR jobid) = none)
      (noRequest : before.files (spoolName REQDIR jobid) = none) :
      Outcomes .getNewjobno before jobid { before with jobid := some jobid }
  | creat {name : Bytes} (number : Nat) (before : Server) :
      Outcomes (.creat name) before (.ok ⟨number, name⟩ : Except Nat Descriptor)
        { before with files := Function.update before.files name (some []) }
  | creatFails {name : Bytes} {errno : Nat} (before : Server) (isError : IsError errno) :
      Outcomes (.creat name) before (.error errno : Except Nat Descriptor) before
  | tread {nbytes : Nat} {chunk : Bytes} {rest : List Bytes} {before : Server}
      (arrives : before.incoming = chunk :: rest) (within : chunk.length ≤ nbytes) :
      Outcomes (.tread nbytes) before (.ok chunk : Except Nat Bytes) { before with incoming := rest }
  | treadEnd (nbytes : Nat) (before : Server) :
      Outcomes (.tread nbytes) before (.ok [] : Except Nat Bytes) before
  | treadFails {nbytes errno : Nat} (before : Server) (isError : IsError errno) :
      Outcomes (.tread nbytes) before (.error errno : Except Nat Bytes) before
  | write {fd : Descriptor} {text stored : Bytes} {nw : Nat} {before : Server}
      (isFile : before.files fd.name = some stored) (within : nw ≤ text.length) :
      Outcomes (.write fd text) before (.ok nw : Except Nat Nat)
        { before with files := Function.update before.files fd.name (some (stored ++ text.take nw)) }
  | writeFails {fd : Descriptor} {text stored : Bytes} {errno : Nat} {before : Server} (written : Nat)
      (isFile : before.files fd.name = some stored) (isError : IsError errno) :
      Outcomes (.write fd text) before (.error errno : Except Nat Nat)
        { before with
          files := Function.update before.files fd.name (some (stored ++ text.take written)) }
  | close (fd : Descriptor) (before : Server) : Outcomes (.close fd) before () before
  | unlink (name : Bytes) (before : Server) :
      Outcomes (.unlink name) before ()
        { before with files := Function.update before.files name none }
  | writen (res : PrintResp) (before : Server) :
      Outcomes (.writen res) before () { before with replies := before.replies ++ [res] }
  | addJob {req : PrintReq} {jobid : Int} {before : Server} {malloc : Address}
      {jobs : JobQueue.Memory PrintReq} (isFree : malloc ∉ before.jobs.heap)
      (isAdded : JobQueue.addJob before.jobs malloc req jobid before.added = some jobs) :
      Outcomes (.addJob req jobid) before ()
        { before with jobs := jobs, added := before.added + 1 }

/-- Only files that are there are written to, the list of the jobs is in order, and the
loop comes to its end. -/
def Permitted : Call → Server → Prop
  | .write fd _, server => (server.files fd.name).isSome = true
  | .addJob req jobid, server => ∀ malloc, malloc ∉ server.jobs.heap →
      (JobQueue.addJob server.jobs malloc req jobid server.added).isSome = true
  | .outOfRounds, _ => False
  | _, _ => True

/-! ## All or nothing -/

/-- The files of the job are there, it is queued behind the others with the request that is
stored, and the answer has its number. -/
structure Accepted (jobs : List (Int × PrintReq)) (before after : Server) (jobid : Int)
    (req : PrintReq) : Prop where
  number : after.jobid = some jobid
  data : (after.files (spoolName DATADIR jobid)).isSome = true
  request : after.files (spoolName REQDIR jobid) = some req.bytes
  others : ∀ name, name ≠ spoolName DATADIR jobid → name ≠ spoolName REQDIR jobid →
    after.files name = before.files name
  queued : after.jobs.Holds (jobs ++ [(jobid, req)])
  replied : ∃ res, after.replies = [res] ∧ ntohl res.retcode = 0 ∧ toInt32 (ntohl res.jobid) = jobid

/-- There is no file that was not there, the queue is what it was, and the answers tell
of an error. -/
structure Refused (before after : Server) : Prop where
  files : after.files = before.files
  gone : ∀ jobid, after.jobid = some jobid → after.files (spoolName DATADIR jobid) = none ∧
    after.files (spoolName REQDIR jobid) = none
  queue : after.jobs = before.jobs
  replied : ∀ res ∈ after.replies, ntohl res.retcode ≠ 0

theorem htonl_bytes {value first second third fourth : Nat} (isFirst : first < 256)
    (isSecond : second < 256) (isThird : third < 256) (isFourth : fourth < 256)
    (isValue : value = first * 16777216 + second * 65536 + third * 256 + fourth) :
    htonl value = fourth * 16777216 + third * 65536 + second * 256 + first := by
  have lowest : value % 256 = fourth := by omega
  have lower : value / 256 % 256 = third := by omega
  have higher : value / 65536 % 256 = second := by omega
  have highest : value / 16777216 % 256 = first := by omega
  rw [htonl, lowest, lower, higher, highest]

theorem ntohl_htonl {value : Nat} (fits : value < 4294967296) : ntohl (htonl value) = value := by
  have bytes : ∀ divisor, value / divisor % 256 < 256 := fun _ => Nat.mod_lt _ (by decide)
  have swapped : htonl (htonl value) = _ :=
    htonl_bytes (Nat.mod_lt value (by decide)) (bytes 256) (bytes 65536) (bytes 16777216) rfl
  rw [ntohl, swapped]
  omega

theorem refusal_retcode {strerror : Nat → Bytes} {code : Nat} (isError : IsError code) :
    ntohl (refusal strerror code).retcode ≠ 0 := by
  have fits : code < 4294967296 := Nat.lt_trans isError.2 (by decide)
  rw [refusal, ntohl_htonl fits]
  exact isError.1.ne'

theorem answered_jobid {jobid : Int} (isInt32 : IsInt32 jobid) :
    toInt32 (ntohl (htonl (toUint32 jobid))) = jobid := by
  rcases isInt32 with ⟨lower, upper⟩
  have fits : toUint32 jobid < 4294967296 := by
    rw [toUint32]
    omega
  rw [ntohl_htonl fits, toInt32, toUint32, Int.bmod_def]
  omega

theorem spoolName_ne (jobid other : Int) : spoolName DATADIR jobid ≠ spoolName REQDIR other := by
  intro same
  have letters := congrArg (fun name => name.drop 19 |>.take 1) same
  exact absurd letters (by simp [spoolName, SPOOLDIR, DATADIR, REQDIR, text])

/-- The names fit into the buffer that they are printed into. -/
theorem spoolName_fits {jobid : Int} (isInt32 : IsInt32 jobid) {directory : Bytes}
    (isDirectory : directory = DATADIR ∨ directory = REQDIR) :
    (spoolName directory jobid).length < FILENMSZ := by
  rcases isInt32 with ⟨lower, upper⟩
  have digits : (decimal jobid.natAbs).length ≤ 10 :=
    (decimal_length_le_iff (by decide)).mpr (by omega)
  have number : (printInt jobid).length ≤ 11 := by
    rw [printInt]
    split
    · rw [List.length_cons]
      omega
    · omega
  have front : (SPOOLDIR ++ text "/" ++ directory ++ text "/").length = 24 := by
    rcases isDirectory with rfl | rfl
    · rfl
    · rfl
  rw [spoolName, List.length_append, front, FILENMSZ]
  omega

/-! ## How far a job has come -/

/-- The contents of the two files of the job, and the answers. Everything else is as it was. -/
structure Holding (before : Server) (jobid : Int) (data request : Option Bytes)
    (replies : List PrintResp) (server : Server) : Prop where
  files : server.files = Function.update
    (Function.update before.files (spoolName DATADIR jobid) data) (spoolName REQDIR jobid) request
  jobs : server.jobs = before.jobs
  number : server.jobid = some jobid
  replies : server.replies = replies

section Holding

variable {before server : Server} {jobid : Int} {data request : Option Bytes}
  {replies : List PrintResp}

theorem Holding.new (noData : before.files (spoolName DATADIR jobid) = none)
    (noRequest : before.files (spoolName REQDIR jobid) = none) (noReplies : before.replies = []) :
    Holding before jobid none none [] { before with jobid := some jobid } where
  files := by
    have noDataYet : Function.update before.files (spoolName DATADIR jobid) none = before.files :=
      Function.update_eq_self_iff.mpr noData.symm
    rw [noDataYet, Function.update_eq_self_iff.mpr noRequest.symm]
  jobs := rfl
  number := rfl
  replies := noReplies

theorem Holding.setData (holding : Holding before jobid data request replies server)
    (changed : Option Bytes) : Holding before jobid changed request replies
      { server with files := Function.update server.files (spoolName DATADIR jobid) changed } where
  files := by
    dsimp only
    rw [holding.files, Function.update_comm (spoolName_ne jobid jobid).symm, Function.update_idem]
  jobs := holding.jobs
  number := holding.number
  replies := holding.replies

theorem Holding.setRequest (holding : Holding before jobid data request replies server)
    (changed : Option Bytes) : Holding before jobid data changed replies
      { server with files := Function.update server.files (spoolName REQDIR jobid) changed } where
  files := by
    dsimp only
    rw [holding.files, Function.update_idem]
  jobs := holding.jobs
  number := holding.number
  replies := holding.replies

theorem Holding.reply (holding : Holding before jobid data request replies server)
    (res : PrintResp) : Holding before jobid data request (replies ++ [res])
      { server with replies := server.replies ++ [res] } where
  files := holding.files
  jobs := holding.jobs
  number := holding.number
  replies := by
    dsimp only
    rw [holding.replies]

theorem Holding.readsData (holding : Holding before jobid data request replies server) :
    server.files (spoolName DATADIR jobid) = data := by
  rw [holding.files, Function.update_of_ne (spoolName_ne jobid jobid), Function.update_self]

theorem Holding.readsRequest (holding : Holding before jobid data request replies server) :
    server.files (spoolName REQDIR jobid) = request := by
  rw [holding.files, Function.update_self]

/-- A job that has no files and was answered with errors is refused. -/
theorem Holding.refused (holding : Holding before jobid none none replies server)
    (noData : before.files (spoolName DATADIR jobid) = none)
    (noRequest : before.files (spoolName REQDIR jobid) = none)
    (errors : ∀ res ∈ replies, ntohl res.retcode ≠ 0) : Refused before server where
  files := by
    have noJob := @Holding.new { before with replies := [] } jobid noData noRequest rfl
    exact holding.files.trans noJob.files.symm
  gone := by
    intro number isNumber
    rw [holding.number, Option.some.injEq] at isNumber
    subst isNumber
    exact ⟨holding.readsData, holding.readsRequest⟩
  queue := holding.jobs
  replied := by
    rw [holding.replies]
    exact errors

theorem Holding.refusedWith {strerror : Nat → Bytes} {code : Nat}
    (holding : Holding before jobid none none ([] ++ [refusal strerror code]) server)
    (noData : before.files (spoolName DATADIR jobid) = none)
    (noRequest : before.files (spoolName REQDIR jobid) = none) (isError : IsError code) :
    Refused before server := by
  apply holding.refused noData noRequest
  intro res member
  rw [List.mem_singleton.mp member]
  exact refusal_retcode isError

end Holding

/-! ### The calls -/

section Calls

variable {before server : Server} {jobid : Int} {data request : Option Bytes}
  {replies : List PrintResp}

theorem Holding.close (holding : Holding before jobid data request replies server)
    (fd : Descriptor) : (Thread.close fd).Always Outcomes Permitted
      (fun _ after => Holding before jobid data request replies after) server := by
  apply Program.Always.perform (by trivial)
  intro _ after answered
  cases answered
  exact holding

theorem Holding.writen (holding : Holding before jobid data request replies server)
    (res : PrintResp) : (Thread.writen res).Always Outcomes Permitted
      (fun _ after => Holding before jobid data request (replies ++ [res]) after) server := by
  apply Program.Always.perform (by trivial)
  intro _ after answered
  cases answered
  exact holding.reply res

theorem Holding.unlinkData (holding : Holding before jobid data request replies server) :
    (Thread.unlink (spoolName DATADIR jobid)).Always Outcomes Permitted
      (fun _ after => Holding before jobid none request replies after) server := by
  apply Program.Always.perform (by trivial)
  intro _ after answered
  cases answered
  exact holding.setData none

theorem Holding.unlinkRequest (holding : Holding before jobid data request replies server) :
    (Thread.unlink (spoolName REQDIR jobid)).Always Outcomes Permitted
      (fun _ after => Holding before jobid data none replies after) server := by
  apply Program.Always.perform (by trivial)
  intro _ after answered
  cases answered
  exact holding.setRequest none

/-- A write adds a part of the text to the file, and the part is all of it where there is
no error. -/
theorem outcomes_write {fd : Descriptor} {text : Bytes} {after : Server} {nw : Except Nat Nat}
    (answered : Outcomes (.write fd text) server nw after) :
    ∃ stored written, server.files fd.name = some stored ∧
      after = { server with
        files := Function.update server.files fd.name (some (stored ++ text.take written)) } ∧
      (writeError nw text.length = none ∧ written = text.length ∨
        ∃ code, writeError nw text.length = some code ∧ IsError code) := by
  cases answered with
  | @write _ _ stored count _ isFile within =>
      refine ⟨stored, count, isFile, rfl, ?_⟩
      rw [writeError]
      split
      · rename_i whole
        exact Or.inl ⟨rfl, whole⟩
      · exact Or.inr ⟨ EIO, rfl, by decide, by decide⟩
  | @writeFails _ _ stored errno _ written isFile isError =>
      exact ⟨stored, written, isFile, rfl, Or.inr ⟨errno, rfl, isError⟩⟩

theorem Holding.writeData {bytes : Bytes}
    (holding : Holding before jobid (some bytes) request replies server) (number : Nat)
    (text : Bytes) : (Thread.write ⟨number, spoolName DATADIR jobid⟩ text).Always Outcomes Permitted
      (fun nw after => after.incoming = server.incoming ∧
        ((writeError nw text.length = none ∧
            Holding before jobid (some (bytes ++ text)) request replies after) ∨
          ∃ code stored, writeError nw text.length = some code ∧ IsError code ∧
            Holding before jobid (some stored) request replies after)) server := by
  apply Program.Always.perform
  · exact Option.isSome_iff_exists.mpr ⟨_, holding.readsData⟩
  intro nw after answered
  rcases outcomes_write answered with ⟨stored, count, isFile, rfl, outcome⟩
  rw [holding.readsData, Option.some.injEq] at isFile
  subst isFile
  refine ⟨rfl, ?_⟩
  rcases outcome with ⟨complete, rfl⟩ | ⟨code, failed, isError⟩
  · have longer := holding.setData (some (bytes ++ text.take text.length))
    rw [List.take_length] at longer
    rw [List.take_length]
    exact Or.inl ⟨complete, longer⟩
  · exact Or.inr ⟨code, _, failed, isError, holding.setData _⟩

theorem Holding.writeRequest (holding : Holding before jobid data (some []) replies server)
    (number : Nat) (text : Bytes) :
    (Thread.write ⟨number, spoolName REQDIR jobid⟩ text).Always Outcomes Permitted
      (fun nw after =>
        (writeError nw text.length = none ∧ Holding before jobid data (some text) replies after) ∨
        ∃ code stored, writeError nw text.length = some code ∧ IsError code ∧
          Holding before jobid data (some stored) replies after) server := by
  apply Program.Always.perform
  · exact Option.isSome_iff_exists.mpr ⟨_, holding.readsRequest⟩
  intro nw after answered
  rcases outcomes_write answered with ⟨stored, count, isFile, rfl, outcome⟩
  rw [holding.readsRequest, Option.some.injEq] at isFile
  subst isFile
  rcases outcome with ⟨complete, rfl⟩ | ⟨code, failed, isError⟩
  · have filled := holding.setRequest (some ([] ++ text.take text.length))
    rw [List.take_length, List.nil_append] at filled
    rw [List.take_length, List.nil_append]
    exact Or.inl ⟨complete, filled⟩
  · exact Or.inr ⟨code, _, failed, isError, holding.setRequest _⟩

end Calls

/-! ## The runs -/

section Runs

variable {strerror : Nat → Bytes} {stale : Bytes} {before server : Server} {jobid : Int}
  {jobs : List (Int × PrintReq)} {bytes : Bytes}

/-- Either everything has happened that belongs to a submission, or nothing. -/
def AllOrNothing (jobs : List (Int × PrintReq)) (before after : Server) : Prop :=
  (∃ jobid req, Accepted jobs before after jobid req) ∨ Refused before after

/-- Behind the answer that accepts the job it is queued. -/
theorem addJob_accepts {req : PrintReq} {res : PrintResp} (holds : before.jobs.Holds jobs)
    (holding : Holding before jobid (some bytes) (some req.bytes) [res] server)
    (success : ntohl res.retcode = 0) (number : toInt32 (ntohl res.jobid) = jobid) :
    (Thread.addJob req jobid).Always Outcomes Permitted
      (fun _ after => Accepted jobs before after jobid req ∧
        after.files (spoolName DATADIR jobid) = some bytes) server := by
  have sameJobs := holding.jobs
  apply Program.Always.perform
  · intro malloc isFree
    rw [sameJobs] at isFree ⊢
    rcases JobQueue.addJob_holds holds isFree req jobid server.added with ⟨longer, isAdded, _⟩
    exact Option.isSome_iff_exists.mpr ⟨longer, isAdded⟩
  intro _ after answered
  cases answered with
  | addJob isFree isAdded =>
      rw [sameJobs] at isFree isAdded
      rcases JobQueue.addJob_holds holds isFree req jobid server.added with
        ⟨longer, sameAdded, holdsLonger⟩
      rw [isAdded, Option.some.injEq] at sameAdded
      subst sameAdded
      refine ⟨⟨holding.number, ?_, holding.readsRequest, ?_, holdsLonger,
        ⟨res, holding.replies, success, number⟩⟩, holding.readsData⟩
      · exact Option.isSome_iff_exists.mpr ⟨_, holding.readsData⟩
      · intro name notData notRequest
        dsimp only
        rw [holding.files, Function.update_of_ne notRequest, Function.update_of_ne notData]

/-- The job is accepted with the data that was stored for it, or it is refused. -/
theorem storeRequest_ends (isInt32 : IsInt32 jobid)
    (noData : before.files (spoolName DATADIR jobid) = none)
    (noRequest : before.files (spoolName REQDIR jobid) = none) (holds : before.jobs.Holds jobs)
    (holding : Holding before jobid (some bytes) none [] server) (req : PrintReq) :
    (storeRequest strerror req jobid).Always Outcomes Permitted
      (fun _ after => Accepted jobs before after jobid req ∧
        after.files (spoolName DATADIR jobid) = some bytes ∨ Refused before after) server := by
  rw [storeRequest]
  apply Program.Always.call (by trivial)
  intro created opened answered
  cases answered with
  | creatFails _ isError =>
      apply Program.Always.bind
      apply (holding.writen _).mono
      intro _ replied holding
      apply holding.unlinkData.mono
      intro _ after holding
      exact Or.inr (holding.refusedWith noData noRequest isError)
  | creat number =>
      have stored := holding.setRequest (some [])
      generalize { server with
        files := Function.update server.files (spoolName REQDIR jobid) (some []) } = opened at stored
      apply Program.Always.bind
      apply (stored.writeRequest number req.bytes).mono
      intro nw written outcome
      rw [req.bytes_length] at outcome
      rcases outcome with ⟨complete, holding⟩ | ⟨code, part, failed, isError, holding⟩
      · rw [complete]
        apply Program.Always.bind
        apply (holding.close _).mono
        intro _ closed holding
        apply Program.Always.bind
        apply (holding.writen _).mono
        intro _ replied holding
        have success : ntohl 0 = 0 := by decide
        apply (addJob_accepts holds holding success (answered_jobid isInt32)).mono
        intro _ after accepted
        exact Or.inl accepted
      · rw [failed]
        apply Program.Always.bind
        apply (holding.close _).mono
        intro _ closed holding
        apply Program.Always.bind
        apply (holding.writen _).mono
        intro _ replied holding
        apply Program.Always.bind
        apply holding.unlinkRequest.mono
        intro _ removed holding
        apply holding.unlinkData.mono
        intro _ after holding
        exact Or.inr (holding.refusedWith noData noRequest isError)

variable {fewer : (call : Call) → Server → Response call → Server → Prop}

/-- The end of the data, an error or a timeout. -/
def NoData : Except Nat Bytes → Prop
  | .ok (_ :: _) => False
  | _ => True

/-- The pieces in front of the first call that gives no data. -/
def Takes (fewer : (call : Call) → Server → Response call → Server → Prop) (server : Server)
    (pieces : List Bytes) : Prop :=
  ∃ last response received, server.incoming = pieces ++ received.incoming ∧
    fewer (.tread IOBUFSZ) last response received ∧ NoData response

theorem takes_nil {response : Except Nat Bytes} {after : Server}
    (answered : fewer (.tread IOBUFSZ) server response after) (noData : NoData response)
    (same : server.incoming = after.incoming) : Takes fewer server [] :=
  ⟨server, response, after, same, answered, noData⟩

/-- The loop ends with a request and the data that was received, or the job is refused. -/
theorem receiveData_ends
    (implies : ∀ call server response after, fewer call server response after →
      Outcomes call server response after)
    (noData : before.files (spoolName DATADIR jobid) = none)
    (noRequest : before.files (spoolName REQDIR jobid) = none) (number : Nat) :
    ∀ rounds first req bytes server, server.incoming.length < rounds →
      Holding before jobid (some bytes) none [] server →
      (receiveData strerror stale (spoolName DATADIR jobid) ⟨number, spoolName DATADIR jobid⟩ rounds
        first req).Always fewer Permitted (fun result after => match result with
          | some _ => ∃ pieces, Takes fewer server pieces ∧
              Holding before jobid (some (bytes ++ pieces.flatten)) none [] after
          | none => Refused before after) server
  | 0, first, req, bytes, server, enough, holding => absurd enough (Nat.not_lt_zero _)
  | rounds + 1, first, req, bytes, server, enough, holding => by
      rw [receiveData]
      apply Program.Always.call (by trivial)
      intro received arrived answered
      have holds := holding
      rw [← List.append_nil bytes] at holds
      have outcome := implies _ _ _ _ answered
      cases outcome with
      | treadFails _ isError => exact ⟨[], takes_nil answered trivial rfl, holds⟩
      | treadEnd => exact ⟨[], takes_nil answered trivial rfl, holds⟩
      | @tread _ chunk rest _ arrives within =>
          have sofar : Holding before jobid (some bytes) none [] { server with incoming := rest } :=
            ⟨holding.files, holding.jobs, holding.number, holding.replies⟩
          cases chunk with
          | nil =>
              refine ⟨[[]], ⟨server, .ok [], { server with incoming := rest }, arrives, answered, trivial⟩, ?_⟩
              rw [List.flatten_singleton, List.append_nil]
              exact sofar
          | cons byte chunk =>
              apply Program.Always.bind
              apply ((sofar.writeData number (byte :: chunk)).mono_step implies).mono
              intro nw written outcome
              rcases outcome with ⟨sameIncoming, ⟨complete, holding⟩ | ⟨code, stored, failed, isError, holding⟩⟩
              · rw [complete]
                have fewerRounds : written.incoming.length < rounds := by
                  rw [arrives, List.length_cons] at enough
                  rw [sameIncoming]
                  exact Nat.lt_of_succ_lt_succ enough
                apply (receiveData_ends implies noData noRequest number rounds false _ _ written fewerRounds
                  holding).mono
                intro result after ends
                cases result with
                | none => exact ends
                | some req =>
                    rcases ends with ⟨pieces, ⟨last, response, later, split, ended, isEnd⟩, holding⟩
                    refine ⟨(byte :: chunk) :: pieces, ⟨last, response, later, ?_, ended, isEnd⟩, ?_⟩
                    · rw [arrives, List.cons_append, ← split, sameIncoming]
                    · rw [List.flatten_cons, ← List.append_assoc]
                      exact holding
              · rw [failed]
                apply Program.Always.bind
                apply ((holding.close _).mono_step implies).mono
                intro _ closed holding
                apply Program.Always.bind
                apply ((holding.writen _).mono_step implies).mono
                intro _ replied holding
                apply Program.Always.bind
                apply (holding.unlinkData.mono_step implies).mono
                intro _ after holding
                exact holding.refusedWith noData noRequest isError

/-- A job that has no number yet has no files either. -/
theorem refuses_early {code : Nat} (noNumber : before.jobid = none) (noReplies : before.replies = [])
    (isError : IsError code) : (Thread.writen (refusal strerror code)).Always Outcomes Permitted
      (fun _ after => Refused before after) before := by
  apply Program.Always.perform (by trivial)
  intro _ after answered
  cases answered
  refine ⟨rfl, fun jobid isNumber => ?_, rfl, fun res member => ?_⟩
  · dsimp only at isNumber
    rw [noNumber] at isNumber
    cases isNumber
  · dsimp only at member
    rw [noReplies, List.nil_append, List.mem_singleton] at member
    rw [member]
    exact refusal_retcode isError

/-- The job is accepted with what the connection has given, which was the header and the
pieces of the file. -/
def AcceptedFrom (fewer : (call : Call) → Server → Response call → Server → Prop)
    (jobs : List (Int × PrintReq)) (before after : Server) : Prop :=
  ∃ header pieces jobid req, fewer (.treadn PRINTREQ_SIZE) before (.ok header : Except Nat Bytes) before ∧
    header.length = PRINTREQ_SIZE ∧ Takes fewer before pieces ∧
    Accepted jobs before after jobid req ∧
    after.files (spoolName DATADIR jobid) = some pieces.flatten

theorem clientThread_ends
    (implies : ∀ call server response after, fewer call server response after →
      Outcomes call server response after)
    (strerror : Nat → Bytes) (stale : Bytes) {rounds : Nat}
    (noNumber : before.jobid = none) (noReplies : before.replies = [])
    (holds : before.jobs.Holds jobs) (enough : before.incoming.length < rounds) :
    (clientThread strerror stale rounds).Always fewer Permitted
      (fun _ after => AcceptedFrom fewer jobs before after ∨ Refused before after) before := by
  rw [clientThread]
  apply Program.Always.call (by trivial)
  intro isWorker _ answered
  have outcome := implies _ _ _ _ answered
  cases outcome
  cases isWorker with
  | false =>
      refine Or.inr ⟨rfl, fun jobid isNumber => ?_, rfl, fun res member => ?_⟩
      · rw [noNumber] at isNumber
        cases isNumber
      · rw [noReplies] at member
        cases member
  | true =>
      rw [Bool.not_true, if_neg Bool.false_ne_true]
      apply Program.Always.call (by trivial)
      intro header _ took
      have outcome := implies _ _ _ _ took
      cases outcome with
      | treadnFails _ isError =>
          apply ((refuses_early noNumber noReplies isError).mono_step implies).mono
          intro _ after refused
          exact Or.inr refused
      | @treadn _ bytes _ within =>
          dsimp only
          split
          · rename_i whole
            apply Program.Always.call (by trivial)
            intro jobid _ answered
            have outcome := implies _ _ _ _ answered
            cases outcome with
            | getNewjobno isInt32 noData noRequest =>
                have numbered := Holding.new noData noRequest noReplies
                apply Program.Always.call (by trivial)
                intro created _ answered
                have outcome := implies _ _ _ _ answered
                cases outcome with
                | creatFails _ isError =>
                    apply ((numbered.writen _).mono_step implies).mono
                    intro _ after holding
                    exact Or.inr (holding.refusedWith noData noRequest isError)
                | creat number =>
                    apply Program.Always.bind
                    apply (receiveData_ends implies noData noRequest number rounds true _ [] _
                      (by exact enough) (numbered.setData (some []))).mono
                    intro result received outcome
                    cases result with
                    | none => exact Or.inr outcome
                    | some req =>
                        rcases outcome with ⟨pieces, takes, holding⟩
                        apply Program.Always.bind
                        apply ((holding.close _).mono_step implies).mono
                        intro _ closed holding
                        apply ((storeRequest_ends isInt32 noData noRequest holds holding
                          req).mono_step implies).mono
                        intro _ after ends
                        rcases ends with ⟨accepted, stored⟩ | refused
                        · exact Or.inl ⟨bytes, pieces, jobid, req, took, whole, takes, accepted, stored⟩
                        · exact Or.inr refused
          · have isError : IsError EIO := ⟨by decide, by decide⟩
            apply ((refuses_early noNumber noReplies isError).mono_step implies).mono
            intro _ after refused
            exact Or.inr refused

/-- Whatever the calls return, a job is accepted with all that belongs to it, or nothing of
it is left and the client is told of an error. -/
theorem submission_allOrNothing (strerror : Nat → Bytes) (stale : Bytes) {rounds : Nat}
    (noNumber : before.jobid = none) (noReplies : before.replies = [])
    (holds : before.jobs.Holds jobs) (enough : before.incoming.length < rounds) :
    (clientThread strerror stale rounds).Always Outcomes Permitted
      (fun _ after => AllOrNothing jobs before after) before := by
  apply (clientThread_ends (fun _ _ _ _ outcome => outcome) strerror stale noNumber noReplies holds
    enough).mono
  intro _ after ends
  rcases ends with ⟨_, _, jobid, req, _, _, _, accepted, _⟩ | refused
  · exact Or.inl ⟨jobid, req, accepted⟩
  · exact Or.inr refused

end Runs

/-- An empty spool directory, and a client that sends a file in two pieces. -/
def twoPieces : Server where
  files := fun _ => none
  incoming := [text "%!PS", text "showpage"]
  jobid := none
  replies := []
  jobs := ⟨∅, none, none⟩
  added := 0

theorem submission_allOrNothing_twoPieces :
    (clientThread (fun _ => []) [] 3).Always Outcomes Permitted
      (fun _ after => AllOrNothing [] twoPieces after) twoPieces :=
  submission_allOrNothing _ _ rfl rfl ⟨[], .empty _ _, .nil⟩ (by decide)

end Apue.Printer.Submission
