import Apue.Foundation.Buffers
import Apue.Printer.AnnouncedSize

/-! # The client that submits a print job

`submit_file` of `printer/print.c` sends a header and then the file, and reads the answer.
-/

namespace Apue.Printer.SubmitFile

open Apue.Foundation Ascii
open Submission (PrintReq USERNM_MAX JOBNM_MAX MSGLEN_MAX IOBUFSZ PR_TEXT PRINTREQ_SIZE htonl ntohl
  uint32At uint32Bytes)

/-- `sizeof(struct printresp)` -/
def PRINTRESP_SIZE : Nat := 520

/-! ## The header -/

def strcpy (array string : Bytes) : Bytes := string ++ 0 :: array.drop (string.length + 1)

def strncpy (array string : Bytes) (count : Nat) : Bytes :=
  string.take count ++ List.replicate (count - string.length) 0 ++ array.drop count

def strncat (array string : Bytes) (count : Nat) : Bytes :=
  strcpy array (cString array ++ string.take count)

/-- `none` is a user without an entry in the password file. -/
def usernm (pwd : Option CString) (stale : Bytes) : Bytes :=
  match pwd with
  | none => strcpy stale (text "unknown")
  | some name => (strncpy stale name.val (USERNM_MAX - 1)).set (USERNM_MAX - 1) 0

def jobnm (fname : CString) (stale : Bytes) : Bytes :=
  let len := fname.val.length
  if JOBNM_MAX ≤ len then
    strncat (strcpy stale (text "... ")) (fname.val.drop (len - JOBNM_MAX + 5)) (JOBNM_MAX - 5)
  else strcpy stale fname.val

/-- The names as they can be read from the header. -/
def shownUser (pwd : Option CString) : Bytes :=
  match pwd with
  | none => text "unknown"
  | some name => name.val.take (USERNM_MAX - 1)

/-- A long name loses its beginning. -/
def shownJob (fname : CString) : Bytes :=
  if JOBNM_MAX ≤ fname.val.length then
    text "... " ++ fname.val.drop (fname.val.length - (JOBNM_MAX - 5))
  else fname.val

section Header

variable {array string stale : Bytes} {count : Nat}

theorem strcpy_length (fits : string.length < array.length) :
    (strcpy array string).length = array.length := by
  rw [strcpy, List.length_append, List.length_cons, List.length_drop]
  omega

theorem cString_strcpy (noNul : ∀ byte ∈ string, byte ≠ 0) : cString (strcpy array string) = string :=
  cString_append noNul

theorem cString_strncat (noNul : ∀ byte ∈ string, byte ≠ 0) :
    cString (strncat array string count) = cString array ++ string.take count := by
  apply cString_strcpy
  intro byte member
  rcases List.mem_append.mp member with before | behind
  · exact cString_noNul array byte before
  · exact noNul byte (List.mem_of_mem_take behind)

theorem strncpy_length (fits : count ≤ array.length) :
    (strncpy array string count).length = array.length := by
  rw [strncpy, List.length_append, List.length_append, List.length_take, List.length_replicate,
    List.length_drop]
  omega

theorem usernm_length (pwd : Option CString) (isStale : stale.length = USERNM_MAX) :
    (usernm pwd stale).length = USERNM_MAX := by
  cases pwd with
  | none =>
      rw [usernm, strcpy_length, isStale]
      rw [isStale]
      decide
  | some name =>
      rw [usernm, List.length_set, strncpy_length, isStale]
      rw [isStale]
      exact Nat.sub_le _ _

/-- The part of a long name that is sent. -/
theorem length_drop_long {fname : Bytes} (long : JOBNM_MAX ≤ fname.length) :
    (fname.drop (fname.length - JOBNM_MAX + 5)).length = JOBNM_MAX - 5 := by
  rw [List.length_drop]
  have positive : 5 ≤ JOBNM_MAX := by decide
  omega

theorem jobnm_length (fname : CString) (isStale : stale.length = JOBNM_MAX) :
    (jobnm fname stale).length = JOBNM_MAX := by
  rw [jobnm]
  split
  · rename_i long
    have front : (strcpy stale (text "... ")).length = stale.length := by
      apply strcpy_length
      rw [isStale]
      decide
    have dots : cString (strcpy stale (text "... ")) = text "... " := cString_strcpy (ne_of_all (by decide))
    rw [strncat, dots, strcpy_length]
    · rw [front, isStale]
    · rw [front, isStale, List.length_append, List.length_take, length_drop_long long]
      decide
  · rename_i short
    rw [strcpy_length]
    · exact isStale
    · rw [isStale]
      exact Nat.lt_of_not_le short

theorem cString_usernm (pwd : Option CString) (isStale : stale.length = USERNM_MAX) :
    cString (usernm pwd stale) = shownUser pwd := by
  cases pwd with
  | none => exact cString_strcpy (ne_of_all (by decide))
  | some name =>
      have noNul : ∀ byte ∈ name.val.take (USERNM_MAX - 1), byte ≠ 0 :=
        fun byte member => name.property byte (List.mem_of_mem_take member)
      have size : USERNM_MAX - 1 < stale.length := by
        rw [isStale]
        decide
      have front : (name.val.take (USERNM_MAX - 1) ++
          List.replicate (USERNM_MAX - 1 - name.val.length) (0 : Byte)).length = USERNM_MAX - 1 := by
        rw [List.length_append, List.length_take, List.length_replicate]
        omega
      rw [usernm, strncpy, List.set_append_right _ _ (Nat.le_of_eq front), front, Nat.sub_self,
        List.drop_eq_getElem_cons size, List.set_cons_zero, List.append_assoc, shownUser]
      cases padding : USERNM_MAX - 1 - name.val.length with
      | zero => exact cString_append noNul
      | succ more => exact cString_append noNul

theorem cString_jobnm (fname : CString) : cString (jobnm fname stale) = shownJob fname := by
  rw [jobnm, shownJob]
  split
  · rename_i long
    have noNul : ∀ byte ∈ fname.val.drop (fname.val.length - JOBNM_MAX + 5), byte ≠ 0 :=
      fun byte member => fname.property byte (List.mem_of_mem_drop member)
    have start : fname.val.length - JOBNM_MAX + 5 = fname.val.length - (JOBNM_MAX - 5) := by
      have positive : 5 ≤ JOBNM_MAX := by decide
      omega
    rw [cString_strncat noNul, cString_strcpy (ne_of_all (by decide)),
      List.take_of_length_le (Nat.le_of_eq (length_drop_long long)), start]
  · exact cString_strcpy fname.property

end Header

/-- The header, in memory that holds `stale` before. -/
def header (stale : PrintReq) (pwd : Option CString) (fname : CString) (nbytes : Nat) (text : Bool) :
    PrintReq where
  size := htonl nbytes
  flags := if text then htonl PR_TEXT else 0
  usernm := usernm pwd stale.usernm
  jobnm := jobnm fname stale.jobnm
  usernmSize := usernm_length pwd stale.usernmSize
  jobnmSize := jobnm_length fname stale.jobnmSize

/-! ## The client -/

inductive Call
  | read (count : Nat)
  | writen (text : Bytes)
  | readn (count : Nat)
  /-- `writen` with the number -1 of a `read` that has failed, which is the largest number that
  there is and leaves the buffer. -/
  | writenBeyond
  /-- The loop does not end within its bound. -/
  | outOfRounds

/-- An error is the value of `errno`. -/
def Response : Call → Type
  | .read _ => Except Nat Bytes
  | .writen _ => Int
  | .readn _ => Except Nat Bytes
  | .writenBeyond => Empty
  | .outOfRounds => Empty

abbrev Client : Type → Type := Program Call Response

/-- What the client prints at its end. -/
inductive Ending
  | cantWrite
  | shortWrite (nw : Int) (count : Nat)
  | cantRead
  | rejected (msg : Bytes)
  | jobID (number : Nat)

namespace Client

def read (count : Nat) : Client (Except Nat Bytes) := .perform (Call.read count)

def writen (text : Bytes) : Client Int := .perform (Call.writen text)

def readn (count : Nat) : Client (Except Nat Bytes) := .perform (Call.readn count)

def writenBeyond {Result : Type} : Client Result :=
  .call Call.writenBeyond fun never : Empty => nomatch never

def outOfRounds {Result : Type} : Client Result :=
  .call Call.outOfRounds fun never : Empty => nomatch never

end Client

def writeFailure (nw : Int) (count : Nat) : Ending :=
  if nw < 0 then .cantWrite else .shortWrite nw count

/-- The loop that sends the file, with a bound on its rounds. There is an ending when a
write has failed. -/
def sendFile : Nat → Client (Option Ending)
  | 0 => Client.outOfRounds
  | rounds + 1 => do
      match ← Client.read IOBUFSZ with
      | .error _ => Client.writenBeyond
      | .ok [] => return none
      | .ok buf =>
          let nw ← Client.writen buf
          if nw ≠ buf.length then return some (writeFailure nw buf.length)
          sendFile rounds

def readResponse : Client Ending := do
  match ← Client.readn PRINTRESP_SIZE with
  | .error _ => return .cantRead
  | .ok res =>
      if res.length ≠ PRINTRESP_SIZE then return .cantRead
      if uint32At res 0 ≠ 0 then return .rejected (cString (res.drop 8))
      return .jobID (ntohl (uint32At res 4))

def submitFile (rounds : Nat) (req : PrintReq) : Client Ending := do
  let nw ← Client.writen req.bytes
  if nw ≠ PRINTREQ_SIZE then return writeFailure nw PRINTREQ_SIZE
  match ← sendFile rounds with
  | some ending => return ending
  | none => readResponse

/-! ## The outcomes of the calls -/

/-- What is left of the file, and what went through the connection. -/
structure Process where
  file : Bytes
  sent : Bytes
  heard : Bytes

inductive Outcomes : (call : Call) → Process → Response call → Process → Prop
  | read {count : Nat} {buf rest : Bytes} {before : Process} (split : before.file = buf ++ rest)
      (within : buf.length ≤ count) (isEnd : buf = [] → rest = []) :
      Outcomes (.read count) before (.ok buf : Except Nat Bytes) { before with file := rest }
  | readFails {count : Nat} (errno : Nat) (before : Process) :
      Outcomes (.read count) before (.error errno : Except Nat Bytes) before
  | writen {text : Bytes} {nw : Nat} (before : Process) (within : nw ≤ text.length) :
      Outcomes (.writen text) before (nw : Int) { before with sent := before.sent ++ text.take nw }
  | writenFails (text : Bytes) (before : Process) : Outcomes (.writen text) before (-1 : Int) before
  | readn {count : Nat} {res : Bytes} (before : Process) (within : res.length ≤ count) :
      Outcomes (.readn count) before (.ok res : Except Nat Bytes)
        { before with heard := before.heard ++ res }
  | readnFails {count : Nat} (errno : Nat) (before : Process) :
      Outcomes (.readn count) before (.error errno : Except Nat Bytes) before

/-- The client sends nothing else than `whole`, and its loop ends. -/
def Sends (whole : Bytes) : Call → Process → Prop
  | .outOfRounds, _ => False
  | _, process => process.sent <+: whole

/-- What the client says at its end it has been told, and then it has sent everything. -/
structure Told (whole : Bytes) (ending : Ending) (process : Process) : Prop where
  sent : process.sent <+: whole
  jobID : ∀ number, ending = .jobID number → process.sent = whole ∧
    process.heard.length = PRINTRESP_SIZE ∧ uint32At process.heard 0 = 0 ∧
      number = ntohl (uint32At process.heard 4)
  rejected : ∀ msg, ending = .rejected msg → process.sent = whole ∧
    process.heard.length = PRINTRESP_SIZE ∧ uint32At process.heard 0 ≠ 0 ∧
      msg = cString (process.heard.drop 8)

section Runs

variable {whole : Bytes} {process : Process} {ending : Ending}

theorem Told.failed {nw : Int} {count : Nat} (sent : process.sent <+: whole) :
    Told whole (writeFailure nw count) process := by
  refine ⟨sent, fun number isEnding => ?_, fun msg isEnding => ?_⟩
  · rw [writeFailure] at isEnding
    split at isEnding
    · cases isEnding
    · cases isEnding
  · rw [writeFailure] at isEnding
    split at isEnding
    · cases isEnding
    · cases isEnding

theorem Told.cantRead (sent : process.sent <+: whole) : Told whole .cantRead process :=
  ⟨sent, fun _ isEnding => (by cases isEnding), fun _ isEnding => by cases isEnding⟩

theorem readResponse_told (sent : process.sent = whole) (quiet : process.heard = []) :
    readResponse.Always Outcomes (Sends whole) (Told whole) process := by
  have isPrefix : process.sent <+: whole := ⟨[], by rw [sent, List.append_nil]⟩
  apply Program.Always.call (by exact isPrefix)
  intro response after answered
  cases answered with
  | readnFails => exact Told.cantRead isPrefix
  | @readn _ res _ within =>
      have heard : process.heard ++ res = res := by rw [quiet, List.nil_append]
      dsimp only
      rw [heard]
      split
      · exact Told.cantRead isPrefix
      · rename_i isWhole
        have size : res.length = PRINTRESP_SIZE := Classical.not_not.mp isWhole
        split
        · rename_i code
          refine ⟨isPrefix, fun _ isEnding => (by cases isEnding), fun msg isEnding => ?_⟩
          cases isEnding
          exact ⟨sent, size, code, rfl⟩
        · rename_i code
          refine ⟨isPrefix, fun number isEnding => ?_, fun _ isEnding => by cases isEnding⟩
          cases isEnding
          exact ⟨sent, size, Classical.not_not.mp code, rfl⟩

/-- A write sends a part of the text, and all of it where it returns its length. -/
theorem outcomes_writen {text rest : Bytes} {after : Process} {nw : Int}
    (answered : Outcomes (.writen text) process nw after) (split : process.sent ++ text ++ rest = whole) :
    after.file = process.file ∧ after.heard = process.heard ∧ after.sent <+: whole ∧
      (nw = text.length → after.sent = process.sent ++ text) := by
  cases answered with
  | @writen _ nw _ within =>
      refine ⟨rfl, rfl, ⟨text.drop nw ++ rest, ?_⟩, fun complete => ?_⟩
      · dsimp only
        rw [← split, List.append_assoc process.sent, ← List.append_assoc (text.take nw),
          List.take_append_drop, List.append_assoc]
      · have all : nw = text.length := Int.ofNat.inj complete
        dsimp only
        rw [all, List.take_length]
  | writenFails =>
      refine ⟨rfl, rfl, ⟨text ++ rest, ?_⟩, fun complete => ?_⟩
      · rw [← List.append_assoc, split]
      · exact absurd complete (by omega)

theorem sendFile_sends : ∀ (rounds : Nat) (process : Process), process.file.length < rounds →
    process.sent ++ process.file = whole → process.heard = [] →
    (sendFile rounds).Always Outcomes (Sends whole) (fun result after => match result with
      | none => after.sent = whole ∧ after.heard = []
      | some ending => Told whole ending after) process
  | 0, _, enough, _, _ => absurd enough (Nat.not_lt_zero _)
  | rounds + 1, process, enough, split, quiet => by
      rw [sendFile]
      have isPrefix : process.sent <+: whole := ⟨process.file, split⟩
      apply Program.Always.call (by exact isPrefix)
      intro response read answered
      cases answered with
      | readFails => exact ⟨isPrefix, fun never => Empty.elim never⟩
      | @read _ buf rest _ isSplit within isEnd =>
          cases buf with
          | nil =>
              have allRead : process.file = [] := by rw [isSplit, isEnd rfl, List.nil_append]
              rw [allRead, List.append_nil] at split
              exact ⟨split, quiet⟩
          | cons byte buf =>
              have next : process.sent ++ (byte :: buf) ++ rest = whole := by
                rw [List.append_assoc, ← isSplit, split]
              apply Program.Always.call (by exact isPrefix)
              intro nw written answered
              rcases outcomes_writen answered next with ⟨sameFile, sameHeard, sent, complete⟩
              split
              · exact Told.failed sent
              · rename_i all
                have isComplete := complete (Classical.not_not.mp all)
                apply sendFile_sends rounds written
                · rw [isSplit, List.length_append, List.length_cons] at enough
                  rw [sameFile]
                  dsimp only
                  omega
                · rw [isComplete, sameFile]
                  exact next
                · rw [sameHeard]
                  exact quiet

/-- Whatever the calls return, the client sends the header and the file from their start on, and
it prints what it was told when it has sent all of them. -/
theorem submitFile_told {file : Bytes} {rounds : Nat} (enough : file.length < rounds) (req : PrintReq) :
    (submitFile rounds req).Always Outcomes (Sends (req.bytes ++ file)) (Told (req.bytes ++ file))
      ⟨file, [], []⟩ := by
  rw [submitFile]
  have isPrefix : [] <+: req.bytes ++ file := List.nil_prefix
  apply Program.Always.call (by exact isPrefix)
  intro nw written answered
  rcases outcomes_writen answered rfl with ⟨sameFile, sameHeard, sent, complete⟩
  split
  · exact Told.failed sent
  · rename_i all
    have count : nw = (req.bytes.length : Int) := by
      rw [req.bytes_length]
      exact Classical.not_not.mp all
    apply Program.Always.bind
    apply (sendFile_sends rounds written (by rw [sameFile]; exact enough) (by rw [complete count, sameFile]; rfl)
      sameHeard).mono
    intro result after ends
    cases result with
    | some ending => exact ends
    | none => exact readResponse_told ends.1 ends.2

end Runs

end Apue.Printer.SubmitFile
