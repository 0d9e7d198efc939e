import Apue.Printer.Recovery

/-! # The daemon is killed and starts again

A client thread of `printer/printd.c` may be stopped in front of any of its calls. What it has
left in the spool directory is what `build_qonstart` finds when the daemon starts again.
-/

namespace Apue.Printer.Crashes

open Apue.Foundation Ascii
open JobNumbers (FILENMSZ printInt toInt32)
open Recovery (Daemon Fate FileOf IsDot Outcomes Permitted Walked buildQonstart buildQonstart_walks
  entryFates entryName fateOf jobOf jobOf_eq_some mem_jobs)
open Submission (DATADIR Descriptor EIO Holding IsError IsInt32 PRINTREQ_SIZE PrintReq PrintResp REQDIR Server
  Thread answered_jobid clientThread htonl markText ntohl outcomes_write receiveData refusal refusal_retcode
  spoolName storeRequest uint32At uint32Bytes writeError)

/-! ## What a client thread leaves behind -/

/-- The numbers of the request fit into their fields. -/
structure Fits (req : PrintReq) : Prop where
  size : req.size < 4294967296
  flags : req.flags < 4294967296

/-- Of the request file there may be a front only, but then the data file is complete. A client
that was told a number has a whole request. -/
structure Spooled (before : Server) (jobid : Int) (data request : Option Bytes)
    (replies : List PrintResp) : Prop where
  isInt32 : IsInt32 jobid
  noData : before.files (spoolName DATADIR jobid) = none
  noRequest : before.files (spoolName REQDIR jobid) = none
  stored : ∀ content, request = some content → ∃ req pieces, content <+: req.bytes ∧ Fits req ∧
    pieces <+: before.incoming ∧ data = some pieces.flatten
  answered : ∀ res ∈ replies, ntohl res.retcode = 0 → toInt32 (ntohl res.jobid) = jobid ∧
    ∃ req : PrintReq, request = some req.bytes

/-- Where the thread has come to, as far as the files and the client are concerned. -/
inductive Left (before server : Server) : Prop
  | unnumbered (files : server.files = before.files) (noNumber : server.jobid = none)
      (errors : ∀ res ∈ server.replies, ntohl res.retcode ≠ 0)
  | numbered {jobid : Int} {data request : Option Bytes} {replies : List PrintResp}
      (holding : Holding before jobid data request replies { server with jobs := before.jobs })
      (spooled : Spooled before jobid data request replies)

section ClientThread

variable {strerror : Nat → Bytes} {stale : Bytes} {before server : Server} {jobid : Int}
  {data request : Option Bytes} {replies : List PrintResp} {pieces : List Bytes} {req : PrintReq}
  {content : Bytes}

theorem Left.of (holding : Holding before jobid data request replies server)
    (spooled : Spooled before jobid data request replies) : Left before server :=
  .numbered ⟨holding.files, rfl, holding.number, holding.replies⟩ spooled

/-- A job that has no request file yet. -/
theorem Spooled.noFile (spooled : Spooled before jobid data request replies) (changed : Option Bytes)
    {others : List PrintResp} (errors : ∀ res ∈ others, ntohl res.retcode ≠ 0) :
    Spooled before jobid changed none others where
  isInt32 := spooled.isInt32
  noData := spooled.noData
  noRequest := spooled.noRequest
  stored := by
    intro _ isSome
    cases isSome
  answered := fun res member success => absurd success (errors res member)

theorem Spooled.refuse {code : Nat} (spooled : Spooled before jobid data request []) (isError : IsError code) :
    Spooled before jobid data request ([] ++ [refusal strerror code]) where
  isInt32 := spooled.isInt32
  noData := spooled.noData
  noRequest := spooled.noRequest
  stored := spooled.stored
  answered := by
    intro res member success
    rw [List.nil_append, List.mem_singleton] at member
    rw [member] at success
    exact absurd success (refusal_retcode isError)

theorem Spooled.accept (spooled : Spooled before jobid data (some req.bytes) []) (msg : Bytes) :
    Spooled before jobid data (some req.bytes)
      ([] ++ [{ retcode := 0, jobid := htonl (Submission.toUint32 jobid), msg := msg }]) where
  isInt32 := spooled.isInt32
  noData := spooled.noData
  noRequest := spooled.noRequest
  stored := spooled.stored
  answered := by
    intro res member _
    rw [List.nil_append, List.mem_singleton] at member
    rw [member]
    exact ⟨answered_jobid spooled.isInt32, req, rfl⟩

theorem Fits.markText (fits : Fits req) (first : Bool) (chunk : Bytes) :
    Fits (markText stale first chunk req) := by
  rw [Submission.markText]
  split
  · have marked : req.flags ||| Submission.PR_TEXT < 2 ^ 32 := Nat.or_lt_two_pow fits.flags (by decide)
    exact ⟨fits.size, marked⟩
  · exact fits

theorem htonl_lt (value : Nat) : htonl value < 4294967296 := by
  rw [htonl]
  omega

theorem fits_ofBytes {header : Bytes} (whole : header.length = PRINTREQ_SIZE) :
    Fits { PrintReq.ofBytes header whole with
      size := ntohl (PrintReq.ofBytes header whole).size
      flags := ntohl (PrintReq.ofBytes header whole).flags } :=
  ⟨htonl_lt _, htonl_lt _⟩

/-- The loop that stores the file may be stopped anywhere. -/
theorem receiveData_left (number : Nat) :
    ∀ (rounds : Nat) (first : Bool) (req : PrintReq) (pieces : List Bytes) (server : Server), Fits req →
      before.incoming = pieces ++ server.incoming →
      Holding before jobid (some pieces.flatten) none [] server →
      Spooled before jobid (some pieces.flatten) none [] →
      (receiveData strerror stale (spoolName DATADIR jobid) ⟨number, spoolName DATADIR jobid⟩ rounds
        first req).Always Submission.Outcomes (fun _ => Left before) (fun result after => Left before after ∧
          ∀ req, result = some req → Fits req ∧ ∃ pieces, pieces <+: before.incoming ∧
            Holding before jobid (some pieces.flatten) none [] after) server
  | 0, _, _, _, _, _, _, holding, spooled => ⟨.of holding spooled, fun never => Empty.elim never⟩
  | rounds + 1, first, req, pieces, server, fits, split, holding, spooled => by
      have isFront : pieces <+: before.incoming := ⟨_, split.symm⟩
      rw [receiveData]
      apply Program.Always.call (by exact Left.of holding spooled)
      intro received arrived answered
      have ended : Left before server ∧ ∀ result, some req = some result → Fits result ∧ ∃ pieces,
          pieces <+: before.incoming ∧ Holding before jobid (some pieces.flatten) none [] server := by
        refine ⟨.of holding spooled, fun result isReq => ?_⟩
        cases isReq
        exact ⟨fits, pieces, isFront, holding⟩
      cases answered with
      | treadFails => exact ended
      | treadEnd => exact ended
      | @tread _ chunk rest _ arrives within =>
          have sofar : Holding before jobid (some pieces.flatten) none [] { server with incoming := rest } :=
            ⟨holding.files, holding.jobs, holding.number, holding.replies⟩
          rw [arrives] at split
          cases chunk with
          | nil =>
              refine ⟨.of sofar spooled, fun result isReq => ?_⟩
              cases isReq
              exact ⟨fits, pieces, isFront, sofar⟩
          | cons byte chunk =>
              have noErrors : ∀ res ∈ ([] : List PrintResp), ntohl res.retcode ≠ 0 :=
                fun res member => absurd member (List.not_mem_nil)
              apply Program.Always.bind
              apply ((sofar.writeData number (byte :: chunk)).allow (by exact Left.of sofar spooled)).mono
              intro nw written outcome
              rcases outcome with ⟨sameIncoming, ⟨complete, holding⟩ | ⟨code, stored, failed, isError, holding⟩⟩
              · rw [complete]
                have longer : pieces.flatten ++ byte :: chunk = (pieces ++ [byte :: chunk]).flatten := by
                  rw [List.flatten_append, List.flatten_singleton]
                rw [longer] at holding
                apply receiveData_left number rounds false _ _ written (fits.markText first _) _ holding
                  (spooled.noFile _ noErrors)
                rw [split, sameIncoming, List.append_assoc, List.singleton_append]
              · rw [failed]
                have kept : ∀ data, Spooled before jobid data none [] := fun data => spooled.noFile data noErrors
                apply Program.Always.bind
                apply ((holding.close _).allow (by exact Left.of holding (kept _))).mono
                intro _ closed holding
                apply Program.Always.bind
                apply ((holding.writen _).allow (by exact Left.of holding (kept _))).mono
                intro _ replied holding
                have refused : Spooled before jobid (some stored) none ([] ++ [refusal strerror code]) :=
                  (kept (some stored)).refuse isError
                apply Program.Always.bind
                apply (holding.unlinkData.allow (by exact Left.of holding refused)).mono
                intro _ after holding
                refine ⟨.of holding ((kept none).refuse isError), fun _ isReq => ?_⟩
                cases isReq

/-- With the data stored the request follows, and then the answer. -/
theorem storeRequest_left (fits : Fits req) (isFront : pieces <+: before.incoming)
    (holding : Holding before jobid (some pieces.flatten) none [] server)
    (spooled : Spooled before jobid (some pieces.flatten) none []) :
    (storeRequest strerror req jobid).Always Submission.Outcomes (fun _ => Left before)
      (fun _ after => Left before after) server := by
  have noErrors : ∀ res ∈ ([] : List PrintResp), ntohl res.retcode ≠ 0 :=
    fun res member => absurd member (List.not_mem_nil)
  have kept : ∀ data, Spooled before jobid data none [] := fun data => spooled.noFile data noErrors
  have filled : ∀ content, content <+: req.bytes →
      Spooled before jobid (some pieces.flatten) (some content) [] := by
    intro content isPart
    refine ⟨spooled.isInt32, spooled.noData, spooled.noRequest, fun other isOther => ?_,
      fun res member => absurd member List.not_mem_nil⟩
    cases isOther
    exact ⟨req, pieces, isPart, fits, isFront, rfl⟩
  rw [storeRequest]
  apply Program.Always.call (by exact Left.of holding spooled)
  intro created opened answered
  cases answered with
  | creatFails _ isError =>
      apply Program.Always.bind
      apply ((holding.writen _).allow (by exact Left.of holding spooled)).mono
      intro _ replied holding
      apply (holding.unlinkData.allow (by exact Left.of holding (spooled.refuse isError))).mono
      intro _ after holding
      exact Left.of holding ((kept none).refuse isError)
  | creat number =>
      have stored := holding.setRequest (some [])
      generalize { server with
        files := Function.update server.files (spoolName REQDIR jobid) (some []) } = opened at stored
      apply Program.Always.call (by exact Left.of stored (filled [] List.nil_prefix))
      intro nw written answered
      rcases outcomes_write answered with ⟨content, count, isFile, rfl, outcome⟩
      rw [stored.readsRequest, Option.some.injEq] at isFile
      subst isFile
      have holding := stored.setRequest (some ([] ++ req.bytes.take count))
      have inSpool := filled _ (List.take_prefix count req.bytes)
      rw [req.bytes_length] at outcome
      rw [List.nil_append] at holding ⊢
      rcases outcome with ⟨complete, rfl⟩ | ⟨code, failed, isError⟩
      · rw [complete]
        apply Program.Always.bind
        apply ((holding.close _).allow (by exact Left.of holding inSpool)).mono
        intro _ closed holding
        apply Program.Always.bind
        apply ((holding.writen _).allow (by exact Left.of holding inSpool)).mono
        intro _ replied holding
        have whole : req.bytes.take PRINTREQ_SIZE = req.bytes :=
          List.take_of_length_le (Nat.le_of_eq req.bytes_length)
        rw [whole] at holding
        have accepted := (filled _ (List.prefix_refl _)).accept
        apply Program.Always.perform (by exact Left.of holding (accepted _))
        intro _ after answered
        cases answered
        exact .numbered ⟨holding.files, rfl, holding.number, holding.replies⟩ (accepted _)
      · rw [failed]
        apply Program.Always.bind
        apply ((holding.close _).allow (by exact Left.of holding inSpool)).mono
        intro _ closed holding
        apply Program.Always.bind
        apply ((holding.writen _).allow (by exact Left.of holding inSpool)).mono
        intro _ replied holding
        apply Program.Always.bind
        apply (holding.unlinkRequest.allow (by exact Left.of holding (inSpool.refuse isError))).mono
        intro _ removed holding
        apply (holding.unlinkData.allow (by exact Left.of holding ((kept _).refuse isError))).mono
        intro _ after holding
        exact Left.of holding ((kept none).refuse isError)

/-- Wherever a client thread is stopped, the spool directory is in order. -/
theorem clientThread_left {rounds : Nat} (noNumber : before.jobid = none) (noReplies : before.replies = []) :
    (clientThread strerror stale rounds).Always Submission.Outcomes (fun _ => Left before)
      (fun _ after => Left before after) before := by
  have start : Left before before := by
    refine .unnumbered rfl noNumber fun res member => ?_
    rw [noReplies] at member
    cases member
  have refuses : ∀ code, IsError code → (Thread.writen (refusal strerror code)).Always
      Submission.Outcomes (fun _ => Left before) (fun _ after => Left before after) before := by
    intro code isError
    apply Program.Always.perform (by exact start)
    intro _ after answered
    cases answered
    refine .unnumbered rfl noNumber fun res member => ?_
    dsimp only at member
    rw [noReplies, List.nil_append, List.mem_singleton] at member
    rw [member]
    exact refusal_retcode isError
  rw [clientThread]
  apply Program.Always.call (by exact start)
  intro isWorker _ answered
  cases answered
  cases isWorker with
  | false => exact start
  | true =>
      rw [Bool.not_true, if_neg Bool.false_ne_true]
      apply Program.Always.call (by exact start)
      intro header _ answered
      cases answered with
      | treadnFails _ isError => exact refuses _ isError
      | @treadn _ bytes _ within =>
          dsimp only
          split
          · rename_i whole
            apply Program.Always.call (by exact start)
            intro jobid _ answered
            cases answered with
            | getNewjobno isInt32 noData noRequest =>
                have numbered := Holding.new noData noRequest noReplies
                have noFiles : ∀ data, Spooled before jobid data none [] := by
                  intro data
                  refine ⟨isInt32, noData, noRequest, fun _ isFile => ?_, fun res member => ?_⟩
                  · cases isFile
                  · cases member
                apply Program.Always.call (by exact Left.of numbered (noFiles none))
                intro created _ answered
                cases answered with
                | creatFails _ isError =>
                    apply ((numbered.writen _).allow (by exact Left.of numbered (noFiles none))).mono
                    intro _ after holding
                    exact Left.of holding ((noFiles none).refuse isError)
                | creat number =>
                    apply Program.Always.bind
                    apply (receiveData_left number rounds true _ [] _ (by exact fits_ofBytes whole)
                      (by exact rfl) (numbered.setData (some [])) (noFiles _)).mono
                    rintro result received ⟨left, stores⟩
                    cases result with
                    | none => exact left
                    | some req =>
                        rcases stores req rfl with ⟨fits, pieces, isFront, holding⟩
                        apply Program.Always.bind
                        apply ((holding.close _).allow (by exact left)).mono
                        intro _ closed holding
                        exact storeRequest_left fits isFront holding (noFiles _)
          · exact refuses EIO ⟨by decide, by decide⟩

end ClientThread

/-! ## The names in the spool directory -/

theorem printInt_digits (jobid : Int) : ∀ byte ∈ printInt jobid, byte ≠ 0 ∧ byte ≠ 46 := by
  have digits : ∀ byte ∈ decimal jobid.natAbs, byte ≠ 0 ∧ byte ≠ 46 := by
    intro byte member
    refine ⟨decimal_noNul _ byte member, fun isDot => ?_⟩
    have isDigit := decimal_isDigit _ byte member
    rw [isDot] at isDigit
    exact absurd isDigit (by decide)
  intro byte member
  rw [printInt] at member
  split at member
  · rcases List.mem_cons.mp member with rfl | inside
    · decide
    · exact digits byte inside
  · exact digits byte member

/-- The name of both files of a job. -/
def numberName (jobid : Int) : CString :=
  ⟨printInt jobid, fun byte member => (printInt_digits jobid byte member).1⟩

section Names

variable {jobid other : Int} {files : Bytes → Option Bytes} {content : Bytes} {req : PrintReq}

theorem entryName_numberName (directory : Bytes) (jobid : Int) :
    entryName directory (numberName jobid) = spoolName directory jobid := rfl

theorem atoi_numberName (isInt32 : IsInt32 jobid) : atoi (numberName jobid).1 = jobid :=
  atoi_signedDecimal isInt32.1 isInt32.2

theorem spoolName_injective {directory : Bytes} (isInt32 : IsInt32 jobid) (otherInt32 : IsInt32 other)
    (same : spoolName directory jobid = spoolName directory other) : jobid = other := by
  have sameName : numberName jobid = numberName other := Subtype.ext (List.append_cancel_left same)
  rw [← atoi_numberName isInt32, ← atoi_numberName otherInt32, sameName]

theorem numberName_notDot (jobid : Int) : ¬ IsDot (numberName jobid) := by
  have noDot : ∀ byte ∈ (numberName jobid).1, byte ≠ 46 :=
    fun byte member => (printInt_digits jobid byte member).2
  rintro (isDot | isDots)
  · rw [isDot] at noDot
    exact noDot 46 (by decide) rfl
  · rw [isDots] at noDot
    exact noDot 46 (by decide) rfl

theorem ofBytes_bytes {bytes : Bytes} (fits : Fits req) (isReq : bytes = req.bytes)
    (whole : bytes.length = PRINTREQ_SIZE) : PrintReq.ofBytes bytes whole = req := by
  have parts : bytes = uint32Bytes req.size ++ (uint32Bytes req.flags ++ (req.usernm ++ req.jobnm)) := by
    rw [isReq, PrintReq.bytes, List.append_assoc, List.append_assoc]
  have size : uint32At bytes 0 = req.size := by
    rw [parts, Submission.uint32At_uint32Bytes, Nat.mod_eq_of_lt fits.size]
  have flags : uint32At bytes 4 = req.flags := by
    rw [parts, Submission.uint32At_four, Nat.mod_eq_of_lt fits.flags]
  have usernm : (bytes.drop 8).take Submission.USERNM_MAX = req.usernm := by
    rw [parts]
    exact List.take_left' req.usernmSize
  have jobnm : (bytes.drop 72).take Submission.JOBNM_MAX = req.jobnm := by
    have front : (uint32Bytes req.size ++ (uint32Bytes req.flags ++ req.usernm)).length = 72 := by
      rw [List.length_append, List.length_append, req.usernmSize]
      rfl
    rw [parts, ← List.append_assoc (uint32Bytes req.flags), ← List.append_assoc, List.drop_left' front]
    exact List.take_of_length_le (Nat.le_of_eq req.jobnmSize)
  cases req
  simp_all only [PrintReq.ofBytes]

/-- The fate of a job of which the spool directory has the request. -/
theorem fateOf_whole (fits : Fits req) (isFile : files (spoolName REQDIR jobid) = some req.bytes) :
    fateOf files (numberName jobid) = .queued req := by
  have all : req.bytes.take PRINTREQ_SIZE = req.bytes :=
    List.take_of_length_le (Nat.le_of_eq req.bytes_length)
  have whole : (req.bytes.take PRINTREQ_SIZE).length = PRINTREQ_SIZE := by
    rw [all]
    exact req.bytes_length
  rw [fateOf, if_neg (numberName_notDot jobid), entryName_numberName, isFile]
  dsimp only
  rw [dif_pos whole, ofBytes_bytes fits all]

theorem fateOf_short (isFile : files (spoolName REQDIR jobid) = some content)
    (short : content.length < PRINTREQ_SIZE) : fateOf files (numberName jobid) = .discarded := by
  have notWhole : (content.take PRINTREQ_SIZE).length ≠ PRINTREQ_SIZE := by
    rw [List.length_take]
    omega
  rw [fateOf, if_neg (numberName_notDot jobid), entryName_numberName, isFile]
  exact dif_neg notWhole

theorem fateOf_missing (noFile : files (spoolName REQDIR jobid) = none) :
    fateOf files (numberName jobid) = .passed := by
  rw [fateOf, if_neg (numberName_notDot jobid), entryName_numberName, noFile]

end Names

/-! ## What the killed thread has left -/

section Left

variable {before server : Server} {jobid : Int} {req : PrintReq}

/-- The jobs that were there before keep their files. -/
theorem Left.others (left : Left before server) (isInt32 : IsInt32 jobid)
    (isFile : before.files (spoolName REQDIR jobid) = some req.bytes) :
    server.files (spoolName REQDIR jobid) = some req.bytes ∧
      server.files (spoolName DATADIR jobid) = before.files (spoolName DATADIR jobid) := by
  cases left with
  | unnumbered files =>
      rw [files]
      exact ⟨isFile, rfl⟩
  | @numbered own data request replies holding spooled =>
      have different : jobid ≠ own := by
        intro same
        rw [same, spooled.noRequest] at isFile
        cases isFile
      have otherName : ∀ directory, spoolName directory jobid ≠ spoolName directory own :=
        fun directory same => different (spoolName_injective isInt32 spooled.isInt32 same)
      have kept : ∀ fname, fname ≠ spoolName DATADIR own → fname ≠ spoolName REQDIR own →
          server.files fname = before.files fname := by
        intro fname notData notRequest
        have files := congrFun holding.files fname
        rw [Function.update_of_ne notRequest, Function.update_of_ne notData] at files
        exact files
      rw [kept _ (Submission.spoolName_ne own jobid).symm (otherName REQDIR),
        kept _ (otherName DATADIR) (Submission.spoolName_ne jobid own)]
      exact ⟨isFile, rfl⟩

/-- The job of the thread has a complete data file where it has a request file. -/
theorem Left.own (left : Left before server) (isNumber : server.jobid = some jobid) :
    IsInt32 jobid ∧ ∀ content, server.files (spoolName REQDIR jobid) = some content →
      ∃ req pieces, content <+: req.bytes ∧ Fits req ∧ pieces <+: before.incoming ∧
        server.files (spoolName DATADIR jobid) = some pieces.flatten := by
  cases left with
  | unnumbered _ noNumber =>
      rw [noNumber] at isNumber
      cases isNumber
  | @numbered own data request replies holding spooled =>
      have sameNumber := holding.number
      rw [isNumber, Option.some.injEq] at sameNumber
      subst sameNumber
      have isData : server.files (spoolName DATADIR jobid) = data := holding.readsData
      have isRequest : server.files (spoolName REQDIR jobid) = request := holding.readsRequest
      rw [isData, isRequest]
      exact ⟨spooled.isInt32, spooled.stored⟩

/-- A client that was told a number has a whole request. -/
theorem Left.told (left : Left before server) {res : PrintResp} (member : res ∈ server.replies)
    (success : ntohl res.retcode = 0) : server.jobid = some (toInt32 (ntohl res.jobid)) ∧
      ∃ req, Fits req ∧ server.files (spoolName REQDIR (toInt32 (ntohl res.jobid))) = some req.bytes := by
  cases left with
  | unnumbered _ _ errors => exact absurd success (errors res member)
  | @numbered own data request replies holding spooled =>
      have sameReplies := holding.replies
      dsimp only at sameReplies
      rw [sameReplies] at member
      rcases spooled.answered res member success with ⟨isNumber, req, isRequest⟩
      rcases spooled.stored _ isRequest with ⟨whole, pieces, isPart, fits, _⟩
      have same : req.bytes = whole.bytes :=
        isPart.eq_of_length (req.bytes_length.trans whole.bytes_length.symm)
      have isFile : server.files (spoolName REQDIR own) = request := holding.readsRequest
      rw [isNumber, isFile, isRequest, same]
      exact ⟨holding.number, whole, fits, rfl⟩

end Left

/-! ## The restart -/

/-- The directory lists the requests, and nothing but the daemon has written into it. -/
structure Lists (files : Bytes → Option Bytes) (entries : List CString) : Prop where
  nodup : entries.Nodup
  named : ∀ d_name ∈ entries, IsDot d_name ∨ ∃ jobid, IsInt32 jobid ∧ d_name = numberName jobid
  complete : ∀ jobid, IsInt32 jobid → (files (spoolName REQDIR jobid)).isSome = true →
    numberName jobid ∈ entries

/-- The queue behind the restart. It has the jobs that were there before, and the job of the killed
thread if it is whole. Otherwise this job has no request file any more. -/
structure Restarted (before server : Server) (jobs : List (Int × PrintReq)) (after : Daemon) : Prop where
  queue : after.jobs.Holds jobs
  once : (jobs.map Prod.fst).Nodup
  others : ∀ jobid req, IsInt32 jobid → Fits req → before.files (spoolName REQDIR jobid) = some req.bytes →
    (jobid, req) ∈ jobs ∧ after.files (spoolName REQDIR jobid) = some req.bytes ∧
      after.files (spoolName DATADIR jobid) = before.files (spoolName DATADIR jobid)
  own : ∀ jobid, server.jobid = some jobid →
    (∃ req pieces, (jobid, req) ∈ jobs ∧ after.files (spoolName REQDIR jobid) = some req.bytes ∧
      pieces <+: before.incoming ∧ after.files (spoolName DATADIR jobid) = some pieces.flatten) ∨
    jobid ∉ jobs.map Prod.fst ∧ after.files (spoolName REQDIR jobid) = none
  told : ∀ res ∈ server.replies, ntohl res.retcode = 0 →
    ∃ req, (toInt32 (ntohl res.jobid), req) ∈ jobs

section Restart

variable {before server : Server} {restart after : Daemon} {jobs : List (Int × PrintReq)} {jobid : Int}
  {req : PrintReq} {entries : List CString} {files : Bytes → Option Bytes} {directory : Bytes}
  {seen : List (CString × Fate)}

/-- The number of a queued job is the name of its files. -/
theorem named_of_queued {d_name : CString} {number : Int} (lists : Lists files entries)
    (listed : d_name ∈ entries) (isFate : fateOf files d_name = .queued req) (isNumber : atoi d_name.1 = number) :
    IsInt32 number ∧ d_name = numberName number := by
  rcases lists.named d_name listed with isDot | ⟨jobid, isInt32, rfl⟩
  · rw [fateOf, if_pos isDot] at isFate
    cases isFate
  · rw [atoi_numberName isInt32] at isNumber
    subst isNumber
    exact ⟨isInt32, rfl⟩

theorem numbers_nodup (lists : Lists files entries) :
    (((entryFates files entries).filterMap jobOf).map Prod.fst).Nodup := by
  rw [entryFates, List.filterMap_map, List.map_filterMap, List.Nodup, List.pairwise_filterMap]
  apply lists.nodup.imp_of_mem
  rintro d_name other listed otherListed different number isNumber _ isSame rfl
  rcases Option.map_eq_some_iff.mp isNumber with ⟨job, isJob, rfl⟩
  rcases Option.map_eq_some_iff.mp isSame with ⟨same, isSameJob, sameNumber⟩
  rcases jobOf_eq_some.mp isJob with ⟨isFate, isAtoi⟩
  rcases jobOf_eq_some.mp isSameJob with ⟨isSameFate, isSameAtoi⟩
  have first := (named_of_queued lists listed isFate isAtoi).2
  have second := (named_of_queued lists otherListed isSameFate (isSameAtoi.trans sameNumber)).2
  exact different (first.trans second.symm)

theorem queued_mem (lists : Lists files entries) (isInt32 : IsInt32 jobid) (fits : Fits req)
    (isFile : files (spoolName REQDIR jobid) = some req.bytes) :
    (jobid, req) ∈ (entryFates files entries).filterMap jobOf := by
  have listed := lists.complete jobid isInt32 (Option.isSome_iff_exists.mpr ⟨_, isFile⟩)
  exact mem_jobs.mpr ⟨numberName jobid, listed, fateOf_whole fits isFile, atoi_numberName isInt32⟩

/-- The files of a job that is not thrown away. -/
theorem kept_of_fate (walked : Walked False restart [] seen after)
    (isSeen : seen = entryFates restart.files restart.entries)
    (notDiscarded : fateOf restart.files (numberName jobid) ≠ .discarded) {fname : Bytes}
    (isFile : FileOf (numberName jobid) fname) : after.files fname = restart.files fname := by
  apply walked.kept fname
  intro entry member isDiscarded isOther
  rw [isSeen] at member
  rcases List.mem_map.mp member with ⟨d_name, _, rfl⟩
  have same : numberName jobid = d_name := isFile.eq isOther
  rw [same] at notDiscarded
  exact notDiscarded isDiscarded

theorem removed_of_fate (walked : Walked False restart [] seen after)
    (isSeen : seen = entryFates restart.files restart.entries) (listed : numberName jobid ∈ restart.entries)
    (isDiscarded : fateOf restart.files (numberName jobid) = .discarded) {fname : Bytes}
    (isFile : FileOf (numberName jobid) fname) : after.files fname = none := by
  have member : (numberName jobid, fateOf restart.files (numberName jobid)) ∈ seen := by
    rw [isSeen]
    exact List.mem_map_of_mem listed
  rcases walked.removed _ member isDiscarded fname isFile with gone | ⟨faulty, _⟩
  · exact gone
  · exact faulty.elim

theorem notMem_numbers (lists : Lists files entries)
    (notQueued : ∀ req, fateOf files (numberName jobid) ≠ .queued req) :
    jobid ∉ ((entryFates files entries).filterMap jobOf).map Prod.fst := by
  intro member
  rcases List.mem_map.mp member with ⟨job, isJob, rfl⟩
  rcases mem_jobs.mp isJob with ⟨d_name, listed, isFate, isNumber⟩
  rw [(named_of_queued lists listed isFate isNumber).2] at isFate
  exact notQueued job.2 isFate

theorem restarted_of_walked (left : Left before server) (sameFiles : restart.files = server.files)
    (lists : Lists server.files restart.entries) (walked : Walked False restart [] seen after)
    (isEnd : after.entries = []) : Restarted before server (seen.filterMap jobOf) after := by
  have isSeen := walked.seen_eq isEnd
  have kept : ∀ jobid, fateOf server.files (numberName jobid) ≠ .discarded →
      after.files (spoolName REQDIR jobid) = server.files (spoolName REQDIR jobid) ∧
      after.files (spoolName DATADIR jobid) = server.files (spoolName DATADIR jobid) := by
    intro jobid notDiscarded
    rw [← sameFiles] at notDiscarded ⊢
    exact ⟨kept_of_fate walked isSeen notDiscarded (Or.inl rfl),
      kept_of_fate walked isSeen notDiscarded (Or.inr rfl)⟩
  have keptWhole : ∀ jobid req, Fits req → server.files (spoolName REQDIR jobid) = some req.bytes →
      after.files (spoolName REQDIR jobid) = some req.bytes ∧
      after.files (spoolName DATADIR jobid) = server.files (spoolName DATADIR jobid) := by
    intro jobid req fits isFile
    have notDiscarded : fateOf server.files (numberName jobid) ≠ .discarded := by
      rw [fateOf_whole fits isFile]
      rintro ⟨⟩
    rw [← isFile]
    exact kept jobid notDiscarded
  rw [sameFiles] at isSeen
  refine ⟨walked.queued, ?_, ?_, ?_, ?_⟩
  · rw [isSeen]
    exact numbers_nodup lists
  · intro jobid req isInt32 fits isFile
    rcases left.others isInt32 isFile with ⟨request, data⟩
    rcases keptWhole jobid req fits request with ⟨requestKept, dataKept⟩
    refine ⟨?_, requestKept, dataKept.trans data⟩
    rw [isSeen]
    exact queued_mem lists isInt32 fits request
  · intro jobid isNumber
    rcases left.own isNumber with ⟨isInt32, stored⟩
    rw [isSeen]
    cases isFile : server.files (spoolName REQDIR jobid) with
    | none =>
        have isFate := fateOf_missing isFile
        refine Or.inr ⟨notMem_numbers lists fun req isQueued => ?_, ?_⟩
        · rw [isFate] at isQueued
          cases isQueued
        · rw [(kept jobid (by rw [isFate]; rintro ⟨⟩)).1, isFile]
    | some content =>
        rcases stored content isFile with ⟨req, pieces, isPart, fits, isFront, isData⟩
        by_cases short : content.length < PRINTREQ_SIZE
        · have isFate := fateOf_short isFile short
          refine Or.inr ⟨notMem_numbers lists fun req isQueued => ?_, ?_⟩
          · rw [isFate] at isQueued
            cases isQueued
          · have listed := lists.complete jobid isInt32 (Option.isSome_iff_exists.mpr ⟨_, isFile⟩)
            rw [← sameFiles] at isFate isSeen
            exact removed_of_fate walked isSeen listed isFate (Or.inl rfl)
        · have whole : content = req.bytes := by
            apply isPart.eq_of_length_le
            rw [req.bytes_length]
            exact Nat.le_of_not_lt short
          rw [whole] at isFile
          rcases keptWhole jobid req fits isFile with ⟨requestKept, dataKept⟩
          exact Or.inl ⟨req, pieces, queued_mem lists isInt32 fits isFile, requestKept, isFront,
            dataKept.trans isData⟩
  · intro res member success
    rcases left.told member success with ⟨isNumber, req, fits, isFile⟩
    refine ⟨req, ?_⟩
    rw [isSeen]
    exact queued_mem lists (left.own isNumber).1 fits isFile

/-- Wherever the daemon is killed while it takes a job, a restart queues the jobs that were there
before, and it queues the new one with a complete file or has removed its request. What a client
was told is true. -/
theorem restart_recovers (strerror : Nat → Bytes) (stale : Bytes) {rounds restartRounds : Nat}
    (noNumber : before.jobid = none) (noReplies : before.replies = []) {last : Submission.Thread Unit}
    (killed : Program.Reaches Submission.Outcomes (clientThread strerror stale rounds) before last server)
    (sameFiles : restart.files = server.files) (noJobs : restart.jobs.Holds [])
    (lists : Lists server.files restart.entries) (enough : restart.entries.length < restartRounds) :
    (buildQonstart restartRounds).Always (Outcomes False) (Permitted False)
      (fun _ after => ∃ jobs, Restarted before server jobs after) restart := by
  have left := (clientThread_left noNumber noReplies).interrupted killed
  have noLong : ¬ ∃ d_name ∈ restart.entries, FILENMSZ ≤ (entryName REQDIR d_name).length := by
    rintro ⟨d_name, listed, tooLong⟩
    rcases lists.named d_name listed with isDot | ⟨jobid, isInt32, rfl⟩
    · have fits : (entryName REQDIR d_name).length < FILENMSZ := by
        rcases isDot with isDot | isDots
        · rw [entryName, isDot]
          decide
        · rw [entryName, isDots]
          decide
      exact absurd fits (Nat.not_lt.mpr tooLong)
    · exact absurd (Submission.spoolName_fits isInt32 (Or.inr rfl)) (Nat.not_lt.mpr tooLong)
  have walks : (buildQonstart restartRounds).Always (Outcomes False)
      (Permitted (∃ d_name ∈ restart.entries, FILENMSZ ≤ (entryName REQDIR d_name).length))
      (fun _ after => ∃ seen, Walked False restart [] seen after ∧ (after.entries = [] ∨ False)) restart :=
    buildQonstart_walks lists.nodup noJobs enough
  apply (walks.mono_allowed _).mono
  · rintro _ after ⟨seen, walked, isEnd | faulty⟩
    · exact ⟨_, restarted_of_walked left sameFiles lists walked isEnd⟩
    · exact faulty.elim
  · intro call daemon permitted
    cases call with
    | overrun => exact noLong permitted
    | _ => exact permitted

end Restart

/-! ## A daemon that is killed with one job in its directory -/

def oneRequest : Server where
  files := Function.update (fun _ => none) (spoolName REQDIR 7) (some Submission.noRequest.bytes)
  incoming := [text "%!PS"]
  jobid := none
  replies := []
  jobs := ⟨∅, none, none⟩
  added := 0

def oneEntry : Daemon where
  files := oneRequest.files
  entries := [⟨text ".", ne_of_all (by decide)⟩, numberName 7]
  unread := []
  opened := 0
  jobs := ⟨∅, none, none⟩
  added := 0

theorem oneEntry_lists : Lists oneRequest.files oneEntry.entries where
  nodup := by decide
  named := by
    intro d_name listed
    rcases List.mem_cons.mp listed with rfl | listed
    · exact Or.inl (Or.inl rfl)
    · exact Or.inr ⟨7, ⟨by decide, by decide⟩, List.mem_singleton.mp listed⟩
  complete := by
    intro jobid isInt32 isFile
    have isSeven : jobid = 7 := by
      apply Classical.not_not.mp
      intro different
      have otherName : spoolName REQDIR jobid ≠ spoolName REQDIR 7 :=
        fun same => different (spoolName_injective isInt32 ⟨by decide, by decide⟩ same)
      have noFile : oneRequest.files (spoolName REQDIR jobid) = none := by
        have files : oneRequest.files = Function.update (fun _ => none) (spoolName REQDIR 7)
          (some Submission.noRequest.bytes) := rfl
        rw [files, Function.update_of_ne otherName]
      rw [noFile] at isFile
      cases isFile
    rw [isSeven]
    exact List.mem_cons_of_mem _ List.mem_cons_self

theorem restart_recovers_oneRequest : ∃ server, (buildQonstart 3).Always (Outcomes False) (Permitted False)
    (fun _ after => ∃ jobs, Restarted oneRequest server jobs after) oneEntry := by
  have killed : ∃ last, Program.Reaches Submission.Outcomes (clientThread (fun _ => []) [] 3) oneRequest
      last oneRequest := ⟨_, .call (.addWorker true oneRequest) (.here _ _)⟩
  rcases killed with ⟨last, killed⟩
  exact ⟨oneRequest, restart_recovers _ _ rfl rfl killed rfl ⟨[], .empty _ _, .nil⟩ oneEntry_lists (by decide)⟩

end Apue.Printer.Crashes
