import Apue.Printer.PrintRequests

/-! # Printing a job

What `printer_thread` of `printer/printd.c` does with the job that it has taken from the queue.
A job leaves the spool directory only when the printer has received all of it and says so.
The answer of the printer is read by `printer_status`, which is looked at elsewhere.
-/

namespace Apue.Printer.Printing

open Apue.Foundation Ascii
open Submission (PrintReq IOBUFSZ DATADIR REQDIR spoolName IsInt32)
open JobHeaders (Buffers setUpHeaders isText ippBytes httpBytes httpLines jobRequest decodeHttp decodeIpp)

inductive Call
  | openFile (name : Bytes)
  | fstat
  | connectRetry
  | writev (texts : List Bytes)
  | write (text : Bytes)
  | read (count : Nat)
  | writen (text : Bytes)
  | printerStatus
  | unlink (name : Bytes)
  | close
  | replaceJob
  | nanosleep
  /-- The headers do not fit into their buffers. -/
  | overrun
  /-- The loop does not end within its bound. -/
  | outOfRounds

/-- An error is the value of `errno`. -/
def Response : Call → Type
  | .openFile _ => Except Nat Unit
  | .fstat => Except Nat Nat
  | .connectRetry => Except Nat Unit
  | .writev _ => Int
  | .write _ => Int
  | .read _ => Except Nat Bytes
  | .writen _ => Int
  | .printerStatus => Bool
  | .unlink _ => Unit
  | .close => Unit
  | .replaceJob => Unit
  | .nanosleep => Unit
  | .overrun => Empty
  | .outOfRounds => Empty

abbrev Thread : Type → Type := Program Call Response

inductive Ending
  | canceled
  | deferred
  | printed
  deriving DecidableEq

def call (command : Call) : Thread (Response command) := .perform command

def overrun {Result : Type} : Thread Result := .call Call.overrun fun never : Empty => nomatch never

def outOfRounds {Result : Type} : Thread Result := .call Call.outOfRounds fun never : Empty => nomatch never

/-- The loop that sends the file, with a bound on its rounds. -/
def sendFile : Nat → Thread Bool
  | 0 => outOfRounds
  | rounds + 1 => do
      match ← call (.read IOBUFSZ) with
      | .error _ => return false
      | .ok [] => return true
      | .ok buf =>
          let nw : Int ← call (.writen buf)
          if nw ≠ buf.length then return false
          sendFile rounds

/-- What comes behind `defer`, with the job still there. -/
def defer (connected : Bool) : Thread Ending := do
  call .close
  if connected then call .close
  call .replaceJob
  call .nanosleep
  return .deferred

section PrinterThread

-- `behind` is the memory behind the request, which a name without a NUL byte runs into.
variable (printer_name : CString) (behind : Bytes) (buffers : Buffers) (jobid : Int) (req : PrintReq)

/-- The file, behind a mark where it is plain text. -/
def sendDocument (rounds : Nat) : Thread Bool := do
  if isText req then
    let nw : Int ← call (.write (text "\x08"))
    if nw ≠ 1 then return false
  sendFile rounds

def sendJob (rounds : Nat) (st_size : Nat) : Thread Bool := do
  match setUpHeaders printer_name behind jobid req st_size buffers with
  | none => overrun
  | some (hcp, icp) =>
      let nw : Int ← call (.writev [hcp.1.take hcp.2, icp.1.take icp.2])
      if nw ≠ hcp.2 + icp.2 then return false
      sendDocument req rounds

def printJob (rounds : Nat) : Thread Ending := do
  let name := spoolName DATADIR jobid
  match ← call (.openFile name) with
  | .error _ => return .canceled
  | .ok () =>
      match ← call .fstat with
      | .error _ =>
          call .close
          return .canceled
      | .ok st_size =>
          match ← call .connectRetry with
          | .error _ => defer false
          | .ok () =>
              if !(← sendJob printer_name behind buffers jobid req rounds st_size) then
                defer true
              else if !(← call .printerStatus) then
                defer true
              else do
                call (.unlink name)
                let name := spoolName REQDIR jobid
                call (.unlink name)
                call .close
                call .close
                return .printed

end PrinterThread

/-! ## The outcomes of the calls -/

/-- The spool directory, what is left to read of the open file, what the printer has received
on this connection and what it says, and whether the job is back in the queue. -/
structure Spooler where
  files : Bytes → Option Bytes
  unread : Bytes
  sent : Bytes
  success : Bool
  replaced : Bool

def Spooler.send (spooler : Spooler) (text : Bytes) : Spooler :=
  { spooler with sent := spooler.sent ++ text }

inductive Outcomes : (call : Call) → Spooler → Response call → Spooler → Prop
  | openFile {name content : Bytes} {before : Spooler} (isFile : before.files name = some content) :
      Outcomes (.openFile name) before (.ok () : Except Nat Unit) { before with unread := content }
  | openFails {name : Bytes} (errno : Nat) (before : Spooler) :
      Outcomes (.openFile name) before (.error errno : Except Nat Unit) before
  | fstat (before : Spooler) :
      Outcomes .fstat before (.ok before.unread.length : Except Nat Nat) before
  | fstatFails (errno : Nat) (before : Spooler) :
      Outcomes .fstat before (.error errno : Except Nat Nat) before
  | connectRetry (before : Spooler) :
      Outcomes .connectRetry before (.ok () : Except Nat Unit) { before with sent := [] }
  | connectFails (errno : Nat) (before : Spooler) :
      Outcomes .connectRetry before (.error errno : Except Nat Unit) before
  | writev {texts : List Bytes} {nw : Nat} (before : Spooler) (within : nw ≤ texts.flatten.length) :
      Outcomes (.writev texts) before (nw : Int) (before.send (texts.flatten.take nw))
  | writevFails (texts : List Bytes) (before : Spooler) :
      Outcomes (.writev texts) before (-1 : Int) before
  | write {text : Bytes} {nw : Nat} (before : Spooler) (within : nw ≤ text.length) :
      Outcomes (.write text) before (nw : Int) (before.send (text.take nw))
  | writeFails (text : Bytes) (before : Spooler) : Outcomes (.write text) before (-1 : Int) before
  | read {count : Nat} {buf rest : Bytes} {before : Spooler} (split : before.unread = buf ++ rest)
      (within : buf.length ≤ count) (isEnd : buf = [] → rest = []) :
      Outcomes (.read count) before (.ok buf : Except Nat Bytes) { before with unread := rest }
  | readFails {count : Nat} (errno : Nat) (before : Spooler) :
      Outcomes (.read count) before (.error errno : Except Nat Bytes) before
  | writen {text : Bytes} {nw : Nat} (before : Spooler) (within : nw ≤ text.length) :
      Outcomes (.writen text) before (nw : Int) (before.send (text.take nw))
  | writenFails (text : Bytes) (before : Spooler) : Outcomes (.writen text) before (-1 : Int) before
  | printerStatus (success : Bool) (before : Spooler) :
      Outcomes .printerStatus before success { before with success := success }
  | unlink (name : Bytes) (before : Spooler) : Outcomes (.unlink name) before ()
      { before with files := Function.update before.files name none }
  | close (before : Spooler) : Outcomes .close before () before
  | replaceJob (before : Spooler) : Outcomes .replaceJob before () { before with replaced := true }
  | nanosleep (before : Spooler) : Outcomes .nanosleep before () before

/-- The loop comes to its end, and the headers fit if they have the room that they take. -/
def Permitted (fits : Prop) : Call → Spooler → Prop
  | .overrun, _ => ¬ fits
  | .outOfRounds, _ => False
  | _, _ => True

/-! ## What the printer receives -/

/-- The printer has received one HTTP request with a print request for the job in it, whose
document is the file of the job, behind a mark where it is plain text. -/
structure Received (printer_name : CString) (behind : Bytes) (jobid : Int) (req : PrintReq)
    (data sent : Bytes) : Prop where
  request : ∃ body, decodeHttp sent = some (httpLines printer_name body.length, body) ∧
    decodeIpp body = some (jobRequest printer_name behind jobid req
      ((if isText req then text "\x08" else []) ++ data))

/-- What has become of the job. It is canceled only if its file cannot be used, it is deferred
with its files, and it is printed if the printer has received it and says so. -/
structure Printed (printer_name : CString) (behind : Bytes) (jobid : Int) (req : PrintReq)
    (before : Spooler) (ending : Ending) (after : Spooler) : Prop where
  kept : ending ≠ .printed → after.files = before.files
  replaced : after.replaced = true ↔ ending = .deferred
  canceled : ending = .canceled → after.sent = before.sent
  gone : ending = .printed → after.files = Function.update
    (Function.update before.files (spoolName DATADIR jobid) none) (spoolName REQDIR jobid) none
  received : ending = .printed → after.success = true ∧ ∃ data,
    before.files (spoolName DATADIR jobid) = some data ∧
      Received printer_name behind jobid req data after.sent

section Runs

variable {printer_name : CString} {behind : Bytes} {buffers : Buffers} {jobid : Int} {req : PrintReq}
  {before spooler : Spooler} {fits : Prop}

/-- The files are as they were, and the job is not back yet. -/
structure Holding (before : Spooler) (unread sent : Bytes) (spooler : Spooler) : Prop where
  files : spooler.files = before.files
  unread : spooler.unread = unread
  sent : spooler.sent = sent
  replaced : spooler.replaced = false

theorem Holding.send {unread sent : Bytes} (holding : Holding before unread sent spooler) (text : Bytes) :
    Holding before unread (sent ++ text) (spooler.send text) :=
  ⟨holding.files, holding.unread, congrArg (· ++ text) holding.sent, holding.replaced⟩

theorem defer_ends {unread sent : Bytes} (holding : Holding before unread sent spooler) (connected : Bool) :
    (defer connected).Always Outcomes (Permitted fits)
      (fun ending after => Printed printer_name behind jobid req before ending after) spooler := by
  have deferred : ∀ after : Spooler, after.files = spooler.files → after.replaced = true →
      Printed printer_name behind jobid req before .deferred after := by
    intro after sameFiles replaced
    refine ⟨fun _ => sameFiles.trans holding.files, ?_, ?_, ?_, ?_⟩
    · simp [replaced]
    · exact fun isCanceled => by cases isCanceled
    · exact fun isPrinted => by cases isPrinted
    · exact fun isPrinted => by cases isPrinted
  have rest : ∀ closed : Spooler, closed.files = spooler.files →
      Program.Always Outcomes (Permitted fits) (fun ending after =>
        Printed printer_name behind jobid req before ending after)
        (do
          call .replaceJob
          call .nanosleep
          return Ending.deferred : Thread Ending) closed := by
    intro closed sameFiles
    apply Program.Always.call (by trivial)
    intro _ replaced answered
    cases answered
    apply Program.Always.call (by trivial)
    intro _ after answered
    cases answered
    exact deferred _ sameFiles rfl
  rw [defer]
  apply Program.Always.call (by trivial)
  intro _ closed answered
  cases answered
  cases connected with
  | false => exact rest spooler rfl
  | true =>
      apply Program.Always.call (by trivial)
      intro _ closed answered
      cases answered
      exact rest spooler rfl

/-- The loop has sent the file when it returns 1. -/
theorem sendFile_sends : ∀ (rounds : Nat) (unread sent : Bytes) (spooler : Spooler), unread.length < rounds →
    Holding before unread sent spooler →
    (sendFile rounds).Always Outcomes (Permitted fits) (fun result after =>
      ∃ left more, Holding before left more after ∧ (result = true → more = sent ++ unread)) spooler
  | 0, _, _, _, enough, _ => absurd enough (Nat.not_lt_zero _)
  | rounds + 1, unread, sent, spooler, enough, holding => by
      rw [sendFile]
      apply Program.Always.call (by trivial)
      intro response read answered
      cases answered with
      | readFails => exact ⟨_, _, holding, fun isTrue => by cases isTrue⟩
      | @read _ buf rest _ split within isEnd =>
          rw [holding.unread] at split
          have sofar : Holding before rest sent { spooler with unread := rest } :=
            ⟨holding.files, rfl, holding.sent, holding.replaced⟩
          cases buf with
          | nil =>
              refine ⟨_, _, sofar, fun _ => ?_⟩
              rw [split, isEnd rfl, List.append_nil, List.append_nil]
          | cons byte buf =>
              apply Program.Always.call (by trivial)
              intro nw written answered
              cases answered with
              | writenFails =>
                  rw [if_pos (by omega)]
                  exact ⟨_, _, sofar, fun isTrue => by cases isTrue⟩
              | @writen _ nw _ within =>
                  have longer : Holding before rest (sent ++ (byte :: buf).take nw)
                      (Spooler.send { spooler with unread := rest } ((byte :: buf).take nw)) :=
                    ⟨holding.files, rfl, congrArg (· ++ (byte :: buf).take nw) holding.sent, holding.replaced⟩
                  split
                  · exact ⟨_, _, longer, fun isTrue => by cases isTrue⟩
                  · rename_i all
                    have complete : nw = (byte :: buf).length := Int.ofNat.inj (Classical.not_not.mp all)
                    rw [complete, List.take_length] at longer ⊢
                    have fewer : rest.length < rounds := by
                      rw [split, List.length_append, List.length_cons] at enough
                      omega
                    apply (sendFile_sends rounds rest _ _ fewer longer).mono
                    rintro result after ⟨left, more, holds, isAll⟩
                    refine ⟨left, more, holds, fun isTrue => ?_⟩
                    rw [isAll isTrue, split, List.append_assoc]

/-- The headers announce what follows them. -/
theorem received_all (short : JobHeaders.ShortNames printer_name behind req) (isInt32 : IsInt32 jobid)
    (oneLine : ∀ byte ∈ printer_name.1, byte ≠ 13) {data mark sent : Bytes}
    (isMark : mark = if isText req then text "\x08" else [])
    (isSent : sent = httpBytes printer_name ((ippBytes printer_name behind jobid req).length +
      (if isText req then 1 else 0) + data.length) ++ ippBytes printer_name behind jobid req ++ mark ++ data) :
    Received printer_name behind jobid req data sent := by
  have length : (ippBytes printer_name behind jobid req).length + (if isText req then 1 else 0) + data.length =
      (ippBytes printer_name behind jobid req ++ (mark ++ data)).length := by
    have one : mark.length = if isText req then 1 else 0 := by
      rw [isMark]
      split
      · rfl
      · rfl
    rw [List.length_append, List.length_append, one, Nat.add_assoc]
  rw [length, List.append_assoc, List.append_assoc] at isSent
  refine ⟨ippBytes printer_name behind jobid req ++ (mark ++ data), ?_, ?_⟩
  · rw [isSent]
    exact JobHeaders.decodeHttp_bytes oneLine _
  · rw [JobHeaders.decodeIpp_bytes short isInt32, isMark]

theorem sendDocument_sends {data sent : Bytes} {rounds : Nat} (enough : data.length < rounds)
    (holding : Holding before data sent spooler) :
    (sendDocument req rounds).Always Outcomes (Permitted fits) (fun result after =>
      ∃ left more, Holding before left more after ∧
        (result = true → more = sent ++ (if isText req then text "\x08" else []) ++ data)) spooler := by
  rw [sendDocument]
  by_cases plain : isText req
  · rw [if_pos plain, if_pos plain]
    apply Program.Always.call (by trivial)
    intro nw marked answered
    cases answered with
    | writeFails =>
        rw [if_pos (by omega)]
        exact ⟨_, _, holding, fun isTrue => by cases isTrue⟩
    | @write _ nw _ within =>
        have longer := holding.send ((text "\x08").take nw)
        split
        · exact ⟨_, _, longer, fun isTrue => by cases isTrue⟩
        · rename_i one
          have isOne : nw = 1 := Int.ofNat.inj (Classical.not_not.mp one)
          rw [isOne] at longer ⊢
          exact sendFile_sends rounds data _ _ enough longer
  · rw [if_neg plain, if_neg plain, List.append_nil]
    exact sendFile_sends rounds data sent _ enough holding

theorem sendJob_sends (isInt32 : IsInt32 jobid) (oneLine : ∀ byte ∈ printer_name.1, byte ≠ 13)
    {data : Bytes} {rounds : Nat} (small : data.length < 2 ^ 62) (enough : data.length < rounds)
    (holding : Holding before data [] spooler) :
    (sendJob printer_name behind buffers jobid req rounds data.length).Always Outcomes
      (Permitted (JobHeaders.ShortNames printer_name behind req)) (fun result after =>
        ∃ left more, Holding before left more after ∧
          (result = true → Received printer_name behind jobid req data more)) spooler := by
  rw [sendJob]
  split
  · rename_i overrun
    refine ⟨fun short => ?_, fun never => Empty.elim never⟩
    have fit := (JobHeaders.headersFit_iff printer_name behind jobid req data.length buffers).mpr short
    rw [JobHeaders.HeadersFit, overrun] at fit
    cases fit
  · rename_i hcp icp isSet
    have short := JobHeaders.short_of_headersFit (Option.isSome_iff_exists.mpr ⟨_, isSet⟩)
    rcases JobHeaders.setUpHeaders_bytes small isSet with ⟨ipp, http⟩
    generalize isHead : httpBytes printer_name _ = head at http
    rw [JobHeaders.take_of_filled ipp, JobHeaders.take_of_filled http, ipp.position, http.position]
    apply Program.Always.call (by trivial)
    intro nw headed answered
    cases answered with
    | writevFails =>
        rw [if_pos (by omega)]
        exact ⟨_, _, holding, fun isTrue => by cases isTrue⟩
    | @writev _ nw _ within =>
        have sofar := holding.send (([head, ippBytes printer_name behind jobid req].flatten).take nw)
        generalize spooler.send _ = sending at sofar ⊢
        split
        · exact ⟨_, _, sofar, fun isTrue => by cases isTrue⟩
        · rename_i all
          have complete : ([head, ippBytes printer_name behind jobid req].flatten).take nw =
              head ++ ippBytes printer_name behind jobid req := by
            have isLength : nw = (head ++ ippBytes printer_name behind jobid req).length := by
              rw [List.length_append]
              omega
            rw [isLength, List.flatten_cons, List.flatten_singleton, List.take_length]
          rw [complete, List.nil_append] at sofar
          apply (sendDocument_sends enough sofar).mono
          rintro result after ⟨left, more, holds, isAll⟩
          refine ⟨left, more, holds, fun isTrue => ?_⟩
          apply received_all short isInt32 oneLine rfl
          rw [isHead]
          exact isAll isTrue

/-- Whatever the calls return, a job is printed, and its files removed, only when the printer has
received one whole request for it with its file, and has said that it is done. Otherwise the
files are as they were, and the job is back in the queue unless its file cannot be used. -/
theorem printJob_ends (isInt32 : IsInt32 jobid) (oneLine : ∀ byte ∈ printer_name.1, byte ≠ 13)
    {rounds : Nat} (small : ∀ data, before.files (spoolName DATADIR jobid) = some data →
      data.length < 2 ^ 62 ∧ data.length < rounds) (fresh : before.replaced = false) :
    (printJob printer_name behind buffers jobid req rounds).Always Outcomes
      (Permitted (JobHeaders.ShortNames printer_name behind req))
      (fun ending after => Printed printer_name behind jobid req before ending after) before := by
  have canceled : ∀ after : Spooler, after.files = before.files → after.sent = before.sent →
      after.replaced = false → Printed printer_name behind jobid req before .canceled after := by
    intro after sameFiles sameSent notReplaced
    refine ⟨fun _ => sameFiles, ?_, fun _ => sameSent, ?_, ?_⟩
    · simp [notReplaced]
    · exact fun isPrinted => by cases isPrinted
    · exact fun isPrinted => by cases isPrinted
  rw [printJob]
  apply Program.Always.call (by trivial)
  intro opened opening answered
  cases answered with
  | openFails => exact canceled before rfl rfl fresh
  | @openFile _ data _ isFile =>
      rcases small data isFile with ⟨smallData, enough⟩
      apply Program.Always.call (by trivial)
      intro stated checked answered
      cases answered with
      | fstatFails =>
          apply Program.Always.call (by trivial)
          intro _ closed answered
          cases answered
          exact canceled _ rfl rfl fresh
      | fstat =>
          apply Program.Always.call (by trivial)
          intro contacted connected answered
          cases answered with
          | connectFails =>
              have holding : Holding before data before.sent { before with unread := data } :=
                ⟨rfl, rfl, rfl, fresh⟩
              exact defer_ends holding false
          | connectRetry =>
              have holding : Holding before data [] { before with unread := data, sent := [] } :=
                ⟨rfl, rfl, rfl, fresh⟩
              apply Program.Always.bind
              apply (sendJob_sends isInt32 oneLine smallData enough holding).mono
              rintro result sending ⟨left, more, holds, isAll⟩
              cases result with
              | false => exact defer_ends holds true
              | true =>
                  apply Program.Always.call (by trivial)
                  intro success answering answered
                  cases answered with
                  | printerStatus =>
                      cases success with
                      | false =>
                          have said : Holding before left more { sending with success := false } :=
                            ⟨holds.files, holds.unread, holds.sent, holds.replaced⟩
                          exact defer_ends said true
                      | true =>
                          apply Program.Always.call (by trivial)
                          intro _ removed answered
                          cases answered
                          apply Program.Always.call (by trivial)
                          intro _ gone answered
                          cases answered
                          apply Program.Always.call (by trivial)
                          intro _ closed answered
                          cases answered
                          apply Program.Always.call (by trivial)
                          intro _ after answered
                          cases answered
                          refine ⟨fun notPrinted => absurd rfl notPrinted, ?_, ?_, fun _ => ?_, fun _ => ?_⟩
                          · simp [holds.replaced]
                          · exact fun isCanceled => by cases isCanceled
                          · rw [← holds.files]
                          · have received := isAll rfl
                            rw [← holds.sent] at received
                            exact ⟨rfl, data, isFile, received⟩

end Runs

/-- A job with its two files. -/
def twoFiles : Spooler where
  files := Function.update (Function.update (fun _ => none) (spoolName DATADIR 7) (some (text "%!PS")))
    (spoolName REQDIR 7) (some Submission.noRequest.bytes)
  unread := []
  sent := []
  success := false
  replaced := false

theorem twoFiles_data : twoFiles.files (spoolName DATADIR 7) = some (text "%!PS") := by
  dsimp only [twoFiles]
  rw [Function.update_of_ne (Submission.spoolName_ne 7 7), Function.update_self]

theorem printJob_ends_twoFiles :
    (printJob (JobHeaders.literal "printer") [] JobHeaders.zeroBuffers 7 Submission.noRequest 5).Always
      Outcomes (Permitted (JobHeaders.ShortNames (JobHeaders.literal "printer") [] Submission.noRequest))
      (fun ending after => Printed (JobHeaders.literal "printer") [] 7 Submission.noRequest twoFiles ending after)
      twoFiles := by
  apply printJob_ends ⟨by decide, by decide⟩ (ne_of_all (by decide)) _ rfl
  intro data isFile
  rw [twoFiles_data, Option.some.injEq] at isFile
  rw [← isFile]
  decide

end Apue.Printer.Printing
