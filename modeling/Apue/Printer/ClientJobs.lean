import Apue.Printer.Printing
import Apue.Printer.Spooling

/-! # From the client to the printer

A job that `submit_file` of `printer/print.c` has submitted, and that `printer_thread` of
`printer/printd.c` prints.
-/

namespace Apue.Printer.ClientJobs

open Apue.Foundation Ascii
open JobNumbers (toInt32)
open JobHeaders (Attribute Buffers ShortNames TAG_NAMEWOLANG decodeHttp decodeIpp isText jobAttributes
  jobRequest jobnm usernm)
open Printing (Ending Outcomes Permitted Printed Received Spooler printJob)
open Spooling (ClientStep DaemonStep Describes Queued World print_submits)
open Submission (DATADIR IsInt32 JOBNM_MAX PR_TEXT PRINTREQ_SIZE PrintReq PrintResp Server USERNM_MAX
  clientThread spoolName)
open SubmitFile (header shownJob shownUser submitFile)

/-- The printer has received the client's job: a request with the number and the names, and a
front of the file, which is all of it where `whole`. -/
def PrintedForClient (pwd : Option CString) (fname : CString) (asText : Bool) (file : Bytes)
    (whole : Prop) (jobid : Int) (sent : Bytes) : Prop :=
  ∃ lines body request mark data, decodeHttp sent = some (lines, body) ∧
    decodeIpp body = some request ∧ request.requestId = jobid ∧
    ⟨TAG_NAMEWOLANG, text "requesting-user-name", shownUser pwd⟩ ∈ request.attributes ∧
    ⟨TAG_NAMEWOLANG, text "job-name", shownJob fname⟩ ∈ request.attributes ∧
    request.document = mark ++ data ∧ (mark = text "\x08" ∨ asText = false ∧ mark = []) ∧
    data <+: file ∧ (data = file ↔ whole)

section Names

variable {pwd : Option CString} {fname : CString} {nbytes : Nat} {asText : Bool} {req : PrintReq}
  {array rest behind : Bytes}

/-- A string that ends within its array is not continued behind it. -/
theorem cString_append_of_short (short : (cString array).length < array.length) :
    cString (array ++ rest) = cString array := by
  rw [cString, cString] at *
  rw [List.takeWhile_append, if_neg (Nat.ne_of_lt short)]

theorem shownUser_length (pwd : Option CString) : (shownUser pwd).length < USERNM_MAX := by
  cases pwd with
  | none => decide
  | some name => exact Nat.lt_of_le_of_lt (List.length_take_le _ _) (by decide)

theorem shownJob_length (fname : CString) : (shownJob fname).length < JOBNM_MAX := by
  have dots : (text "... ").length = 4 := by decide
  rw [shownJob, JOBNM_MAX]
  split
  · rw [List.length_append, List.length_drop, dots]
    omega
  · omega

theorem shown_names (describes : Describes pwd fname nbytes asText req) :
    (usernm behind req).1 = shownUser pwd ∧ (jobnm behind req).1 = shownJob fname := by
  have user : (cString req.usernm).length < req.usernm.length := by
    rw [describes.usernm, req.usernmSize]
    exact shownUser_length pwd
  have job : (cString req.jobnm).length < req.jobnm.length := by
    rw [describes.jobnm, req.jobnmSize]
    exact shownJob_length fname
  constructor
  · rw [← describes.usernm, ← @cString_append_of_short req.usernm (req.jobnm ++ behind) user,
      ← List.append_assoc]
    rfl
  · rw [← describes.jobnm, ← @cString_append_of_short req.jobnm behind job]
    rfl

theorem isText_of_describes (describes : Describes pwd fname nbytes asText req) :
    isText req = true ∨ asText = false ∧ isText req = false := by
  rcases describes.flags with marked | ⟨notText, plain⟩
  · rw [isText, marked]
    exact Or.inl (by decide)
  · rw [isText, plain]
    exact Or.inr ⟨notText, by decide⟩

end Names

section Printed

variable {printer_name : CString} {pwd : Option CString} {fname : CString} {nbytes : Nat}
  {asText : Bool} {req : PrintReq} {behind : Bytes} {jobid : Int} {data file sent : Bytes}

theorem printed_of_received (describes : Describes pwd fname nbytes asText req)
    (received : Received printer_name behind jobid req data sent) {whole : Prop}
    (isFront : data <+: file) (isWhole : data = file ↔ whole) :
    PrintedForClient pwd fname asText file whole jobid sent := by
  rcases received.request with ⟨body, isHttp, isIpp⟩
  rcases @shown_names pwd fname nbytes asText req behind describes with ⟨user, job⟩
  refine ⟨_, body, _, _, data, isHttp, isIpp, rfl, ?_, ?_, rfl, ?_, isFront, isWhole⟩
  · simp [jobRequest, jobAttributes, user]
  · simp [jobRequest, jobAttributes, job]
  · rcases isText_of_describes describes with marked | ⟨notText, plain⟩
    · exact Or.inl (if_pos marked)
    · exact Or.inr ⟨notText, if_neg (Bool.eq_false_iff.mp plain)⟩

end Printed

/-! ## The job of a client that was told its number -/

section Runs

variable {answerBehind : PrintResp → Bytes} {incoming : Except Nat Bytes} {pwd : Option CString}
  {fname : CString} {nbytes : Nat} {asText : Bool} {stack : PrintReq} {file : Bytes} {before : Server}
  {after : World} {jobs : List (Int × PrintReq)} {number : Nat}

theorem isInt32_toInt32 (number : Nat) : IsInt32 (toInt32 number) := by
  have low := @Int.le_bmod number 4294967296 (by decide)
  have high := @Int.bmod_lt number 4294967296 (by decide)
  rw [IsInt32, toInt32]
  omega

/-- A client that prints a job number has the last job of the queue, and whenever the printer
thread has printed this job, the printer has received the client's request with the front of its
file that the daemon has received. -/
theorem client_job_printed (strerror : Nat → Bytes) (stale : Bytes) {clientRounds rounds : Nat}
    (clientEnough : file.length < clientRounds) (enough : before.incoming.length < rounds)
    (noNumber : before.jobid = none) (noReplies : before.replies = []) (holds : before.jobs.Holds jobs)
    (reachable : Dialogue.Reachable (ClientStep answerBehind) (DaemonStep incoming)
      ⟨submitFile clientRounds (header stack pwd fname nbytes asText), clientThread strerror stale rounds,
        ⟨⟨file, [], []⟩, before, []⟩⟩ ⟨.done (.jobID number), .done (), after⟩) :
    ∃ req, after.server.jobs.Holds (jobs ++ [(toInt32 number, req)]) ∧
      ∀ (printer_name : CString) (behind : Bytes) (buffers : Buffers) (spooler : Spooler) (printRounds : Nat),
        (∀ byte ∈ printer_name.1, byte ≠ 13) → file.length < 2 ^ 62 → file.length < printRounds →
        spooler.files = after.server.files → spooler.replaced = false →
        (printJob printer_name behind buffers (toInt32 number) req printRounds).Always Outcomes
          (Permitted (ShortNames printer_name behind req))
          (fun ending last => ending = .printed → PrintedForClient pwd fname asText file
            (after.received.length = PRINTREQ_SIZE + file.length) (toInt32 number) last.sent) spooler := by
  have submitted := print_submits strerror stale clientEnough enough noNumber noReplies holds reachable
  rcases submitted.jobID number rfl with ⟨queued, _⟩
  rcases queued.accepted with ⟨req, accepted, describes⟩
  rcases queued.data with ⟨data, stored, isFront, isWhole⟩
  refine ⟨req, accepted.queued, fun printer_name behind buffers spooler printRounds oneLine small
    printEnough sameFiles fresh => ?_⟩
  have isData : spooler.files (spoolName DATADIR (toInt32 number)) = some data := by
    rw [sameFiles, stored]
  have shorter := isFront.length_le
  apply (Printing.printJob_ends (isInt32_toInt32 number) oneLine _ fresh).mono
  · rintro ending last printed isPrinted
    rcases printed.received isPrinted with ⟨_, other, isOther, received⟩
    rw [isData, Option.some.injEq] at isOther
    rw [← isOther] at received
    exact printed_of_received describes received isFront isWhole
  · intro other isOther
    rw [isData, Option.some.injEq] at isOther
    rw [← isOther]
    exact ⟨Nat.lt_of_le_of_lt shorter small, Nat.lt_of_le_of_lt shorter printEnough⟩

end Runs

theorem client_job_printed_short : ∃ (after : World) (req : PrintReq),
    after.server.jobs.Holds ([] ++ [(toInt32 7, req)]) ∧
      (printJob (JobHeaders.literal "printer") [] JobHeaders.zeroBuffers (toInt32 7) req 5).Always Outcomes
        (Permitted (ShortNames (JobHeaders.literal "printer") [] req))
        (fun ending last => ending = .printed →
          PrintedForClient none ⟨text "a", Spooling.noNul_a⟩ false (text "%!PS")
            (after.received.length = PRINTREQ_SIZE + (text "%!PS").length) (toInt32 7) last.sent)
        ⟨after.server.files, [], [], false, false⟩ := by
  rcases Spooling.client_prints with ⟨after, reached⟩
  rcases client_job_printed _ _ (by decide) (by decide) rfl rfl ⟨[], .empty _ _, .nil⟩ reached with
    ⟨req, holds, prints⟩
  exact ⟨after, req, holds, prints _ _ _ _ 5 (ne_of_all (by decide)) (by decide) (by decide) rfl rfl⟩

end Apue.Printer.ClientJobs
