import Apue.Foundation.Dialogues
import Apue.Printer.Receiving
import Apue.Printer.SubmitFile

/-! # A print job from the client to the queue

`submit_file` of `printer/print.c` and `client_thread` of `printer/printd.c` at the two ends of a
connection, which call in any order. The connection keeps the bytes in order, and gives the
daemon what the client has sent in pieces of any size. The daemon can stop early, as it does
not wait for long: how much it will take is settled in advance by what is incoming.
-/

namespace Apue.Printer.Spooling

open Apue.Foundation Ascii
open JobNumbers (toInt32)
open Submission (PrintReq PrintResp Server MSGLEN_MAX PRINTREQ_SIZE PR_TEXT Accepted Refused Receives
  Connection DATADIR spoolName uint32At uint32Bytes ntohl htonl clientThread)
open SubmitFile (PRINTRESP_SIZE Process Ending submitFile header shownUser shownJob)

structure World where
  client : Process
  server : Server
  received : Bytes

-- `behind` is what the buffer of an answer holds behind its text.
variable (behind : PrintResp → Bytes)

/-- The answer as it is sent. -/
def answer (res : PrintResp) : Bytes :=
  uint32Bytes res.retcode ++ (uint32Bytes res.jobid ++
    (res.msg ++ behind res ++ List.replicate MSGLEN_MAX 0).take MSGLEN_MAX)

/-- The client hears what the daemon has answered. -/
structure ClientStep (call : SubmitFile.Call) (before : World) (response : SubmitFile.Response call)
    (after : World) : Prop where
  outcome : SubmitFile.Outcomes call before.client response after.client
  server : after.server = before.server
  received : after.received = before.received
  heard : after.client.heard <+: before.server.replies.flatMap (answer behind)

/-- The daemon receives what the client has sent. -/
structure DaemonStep (incoming : Except Nat Bytes) (call : Submission.Call) (before : World)
    (response : Submission.Response call) (after : World) : Prop where
  receives : Receives incoming call (before.server, before.received) response
    (after.server, after.received)
  client : after.client = before.client
  sent : after.received <+: before.client.sent

/-- Both have what the other has sent, as far as they have it. -/
structure Linked (world : World) : Prop where
  received : world.received <+: world.client.sent
  heard : world.client.heard <+: world.server.replies.flatMap (answer behind)

/-- The client's part of the queue entry. -/
structure Describes (pwd : Option CString) (fname : CString) (nbytes : Nat) (text : Bool)
    (req : PrintReq) : Prop where
  size : req.size = nbytes % 4294967296
  flags : req.flags = PR_TEXT ∨ text = false ∧ req.flags = 0
  usernm : cString req.usernm = shownUser pwd
  jobnm : cString req.jobnm = shownJob fname

/-- The job is queued with the client's request and the front of its file, as far as the
daemon has received it. -/
structure Queued (jobs : List (Int × PrintReq)) (describes : PrintReq → Prop) (file : Bytes)
    (before : Server) (after : World) (jobid : Int) : Prop where
  accepted : ∃ req, Accepted jobs before after.server jobid req ∧ describes req
  data : ∃ data, after.server.files (spoolName DATADIR jobid) = some data ∧ data <+: file ∧
    (data = file ↔ after.received.length = PRINTREQ_SIZE + file.length)

/-- Where both have come to their ends, the client was told what has become of its job. -/
structure Submitted (jobs : List (Int × PrintReq)) (describes : PrintReq → Prop) (file : Bytes)
    (before : Server) (ending : Ending) (after : World) : Prop where
  outcome : (∃ jobid, Queued jobs describes file before after jobid) ∨ Refused before after.server
  jobID : ∀ number, ending = .jobID number →
    Queued jobs describes file before after (toInt32 number) ∧
      after.client.sent.length = PRINTREQ_SIZE + file.length
  rejected : ∀ msg, ending = .rejected msg → Refused before after.server

section Answers

variable {behind} {res : PrintResp} {replies : List PrintResp} {heard : Bytes}

theorem answer_length : (answer behind res).length = PRINTRESP_SIZE := by
  have numbers : ∀ value, (uint32Bytes value).length = 4 := fun _ => rfl
  rw [answer, List.length_append, List.length_append, List.length_take, List.length_append,
    List.length_replicate, Nat.min_eq_left (Nat.le_add_left _ _), numbers, numbers]
  decide

/-- Whoever has heard a whole answer has heard the first one. -/
theorem heard_answer (isPrefix : heard <+: replies.flatMap (answer behind))
    (whole : heard.length = PRINTRESP_SIZE) : ∃ res rest, replies = res :: rest ∧ heard = answer behind res := by
  cases replies with
  | nil =>
      rw [List.flatMap_nil, List.prefix_nil] at isPrefix
      rw [isPrefix] at whole
      exact absurd whole (by decide)
  | cons res rest =>
      rw [List.flatMap_cons] at isPrefix
      have first : answer behind res <+: answer behind res ++ rest.flatMap (answer behind) :=
        List.prefix_append _ _
      have sameLength : heard.length = (answer behind res).length := by rw [whole, answer_length]
      exact ⟨res, rest, rfl, (List.prefix_of_prefix_length_le isPrefix first sameLength.le).eq_of_length sameLength⟩

end Answers

section Steps

variable {behind} {incoming : Except Nat Bytes}

theorem process_sends {call : SubmitFile.Call} {before after : Process} {response : SubmitFile.Response call}
    (outcome : SubmitFile.Outcomes call before response after) : before.sent <+: after.sent := by
  cases outcome with
  | writen => exact List.prefix_append _ _
  | _ => exact List.prefix_refl _

theorem server_replies {call : Submission.Call} {before after : Server}
    {response : Submission.Response call} (outcome : Submission.Outcomes call before response after) :
    before.replies <+: after.replies := by
  cases outcome with
  | writen => exact List.prefix_append _ _
  | _ => exact List.prefix_refl _

theorem Linked.client {call : SubmitFile.Call} {before after : World}
    {response : SubmitFile.Response call} (linked : Linked behind before)
    (stepped : ClientStep behind call before response after) : Linked behind after := by
  constructor
  · rw [stepped.received]
    exact linked.received.trans (process_sends stepped.outcome)
  · rw [stepped.server]
    exact stepped.heard

theorem Linked.daemon {call : Submission.Call} {before after : World}
    {response : Submission.Response call} (linked : Linked behind before)
    (stepped : DaemonStep incoming call before response after) : Linked behind after := by
  constructor
  · rw [stepped.client]
    exact stepped.sent
  · rw [stepped.client]
    rcases server_replies stepped.receives.1.1 with ⟨more, longer⟩
    dsimp only at longer
    rw [← longer, List.flatMap_append]
    exact linked.heard.trans (List.prefix_append _ _)

end Steps

/-! ## The request at the other end -/

section Describes

variable {pwd : Option CString} {fname : CString} {nbytes : Nat} {text : Bool} {stale req : PrintReq}

theorem header_bytes (req : PrintReq) :
    req.bytes = uint32Bytes req.size ++ (uint32Bytes req.flags ++ (req.usernm ++ req.jobnm)) := by
  simp only [PrintReq.bytes, List.append_assoc]

theorem Describes.ofCarries (carries : Submission.Carries (header stale pwd fname nbytes text).bytes req) :
    Describes pwd fname nbytes text req := by
  have userSize := (header stale pwd fname nbytes text).usernmSize
  have jobSize := (header stale pwd fname nbytes text).jobnmSize
  have flags : ntohl (uint32At (header stale pwd fname nbytes text).bytes 4) =
      if text then PR_TEXT else 0 := by
    rw [header_bytes, Submission.uint32At_four, Submission.ntohl_mod]
    cases text with
    | false =>
        change ntohl 0 = 0
        decide
    | true => exact Submission.ntohl_htonl (by decide)
  constructor
  case size =>
    rw [carries.size, Submission.announcedSize, header_bytes, Submission.uint32At_uint32Bytes,
      Submission.ntohl_mod]
    exact Submission.ntohl_htonl_mod
  case flags =>
    rcases carries.flags with same | marked
    · rw [flags] at same
      cases text with
      | false => exact Or.inr ⟨rfl, same⟩
      | true => exact Or.inl same
    · rw [flags] at marked
      cases text with
      | false => exact Or.inl marked
      | true => exact Or.inl marked
  case usernm =>
    have field : req.usernm = SubmitFile.usernm pwd stale.usernm := by
      rw [carries.usernm, header_bytes]
      exact List.take_left' userSize
    rw [field]
    exact SubmitFile.cString_usernm pwd stale.usernmSize
  case jobnm =>
    have field : req.jobnm = SubmitFile.jobnm fname stale.jobnm := by
      rw [carries.jobnm, header_bytes, ← jobSize]
      have front : (uint32Bytes (header stale pwd fname nbytes text).size ++
          (uint32Bytes (header stale pwd fname nbytes text).flags ++
            (header stale pwd fname nbytes text).usernm)).length = 72 := by
        rw [List.length_append, List.length_append, userSize]
        rfl
      rw [← front]
      simp only [← List.append_assoc, List.drop_left, List.take_length]
      rfl
    rw [field]
    exact SubmitFile.cString_jobnm fname

end Describes

/-! ## Runs of the two -/

section Runs

variable {behind} {incoming : Except Nat Bytes} {pwd : Option CString} {fname : CString}
  {nbytes : Nat} {text : Bool} {stack : PrintReq} {file : Bytes} {before : Server} {after : World}
  {jobs : List (Int × PrintReq)} {ending : Ending}

theorem holds_determines {memory : JobQueue.Memory PrintReq} {other : List (Int × PrintReq)}
    (holds : memory.Holds jobs) (holdsOther : memory.Holds other) : jobs = other := by
  rcases holds with ⟨entries, queue, cells⟩
  rcases holdsOther with ⟨entries', queue', cells'⟩
  have same : entries.map Prod.fst = entries'.map Prod.fst := Heap.Path.unique queue.path queue'.path
  clear queue queue'
  induction cells generalizing entries' other with
  | nil =>
      cases cells' with
      | nil => rfl
      | cons => cases same
  | cons found _ hypothesis =>
      cases cells' with
      | nil => cases same
      | cons foundOther cellsOther =>
          rw [List.map_cons, List.map_cons, List.cons.injEq] at same
          rcases found with ⟨cell, isCell, number, request⟩
          rcases foundOther with ⟨cell', isCell', number', request'⟩
          rw [same.1, isCell', Option.some.injEq] at isCell
          subst isCell
          rw [hypothesis _ cellsOther same.2]
          congr 1
          exact Prod.ext (number.symm.trans number') (request.symm.trans request')

theorem parts_of_prefix {first second front rest : Bytes} (isPrefix : first ++ second <+: front ++ rest)
    (sameLength : first.length = front.length) : first = front ∧ second <+: rest := by
  rcases isPrefix with ⟨more, whole⟩
  rw [List.append_assoc] at whole
  rcases List.append_inj whole sameLength with ⟨same, split⟩
  exact ⟨same, more, split⟩

/-- What was received is a part of what the client sends, so that a job that is accepted is
the client's. -/
theorem queued_of_accepted {whole : Bytes} (holds : before.jobs.Holds jobs)
    (isWhole : whole = (header stack pwd fname nbytes text).bytes ++ file)
    (received : after.received <+: whole)
    (ends : Submission.AcceptedFrom (Connection incoming) jobs before after.server)
    (queues : Submission.QueuesHeader incoming (before, []) (after.server, after.received)) :
    ∃ jobid, Queued jobs (Describes pwd fname nbytes text) file before after jobid := by
  rcases ends with ⟨bytes, pieces, jobid, req, took, size, takes, accepted, stored⟩
  rw [Submission.takes_everything takes] at stored
  have isHeader : .ok bytes = incoming := took.2
  rcases queues with unchanged | ⟨bytes', req', jobid', malloc, isHeader', carries, isFree, ⟨added, isAdded⟩, all⟩
  · exact absurd unchanged (accepted.queues holds)
  rw [← isHeader] at isHeader'
  cases isHeader'
  have sameRequest : req = req' := by
    rcases JobQueue.addJob_holds holds isFree req' jobid' added with ⟨longer, isLonger, holdsLonger⟩
    dsimp only at isAdded
    rw [isAdded, Option.some.injEq] at isLonger
    rw [← isLonger] at holdsLonger
    have sameJobs := List.append_cancel_left (holds_determines accepted.queued holdsLonger)
    rw [List.cons.injEq, Prod.mk.injEq] at sameJobs
    exact sameJobs.1.2
  subst sameRequest
  dsimp only at all
  rw [List.nil_append] at all
  rw [isWhole, all] at received
  rcases parts_of_prefix received (size.trans (PrintReq.bytes_length _).symm) with ⟨sameHeader, isFront⟩
  rw [sameHeader] at carries
  refine ⟨jobid, ⟨req, accepted, Describes.ofCarries carries⟩, _, stored, isFront, ?_⟩
  rw [all, List.length_append, size]
  constructor
  · intro same
    rw [same]
  · exact fun sameLength => isFront.eq_of_length (Nat.add_left_cancel sameLength)

/-- The answer that the client has heard is that of the daemon. -/
theorem submitted_of_told {whole : Bytes} (told : SubmitFile.Told whole ending after.client)
    (heard : after.client.heard <+: after.server.replies.flatMap (answer behind))
    (size : whole.length = PRINTREQ_SIZE + file.length) {describes : PrintReq → Prop}
    (outcome : (∃ jobid, Queued jobs describes file before after jobid) ∨
      Refused before after.server) :
    Submitted jobs describes file before ending after := by
  refine ⟨outcome, fun number isNumber => ?_, fun msg isRejected => ?_⟩
  · rcases told.jobID number isNumber with ⟨sent, length, success, isJobid⟩
    rcases heard_answer heard length with ⟨res, rest, replies, isAnswer⟩
    rw [isAnswer, answer, Submission.uint32At_uint32Bytes] at success
    rcases outcome with ⟨jobid, queued⟩ | refused
    · rcases queued.accepted with ⟨req, accepted, _⟩
      rcases accepted.replied with ⟨only, isOnly, _, sameJobid⟩
      rw [replies, List.cons.injEq] at isOnly
      rw [isAnswer, answer, Submission.uint32At_four, Submission.ntohl_mod, isOnly.1] at isJobid
      rw [isJobid, sameJobid, sent, size]
      exact ⟨queued, rfl⟩
    · have failed := refused.replied res (by rw [replies]; exact List.mem_cons_self)
      exact absurd (Submission.ntohl_eq_zero.mpr success) failed
  · rcases told.rejected msg isRejected with ⟨_, length, code, _⟩
    rcases heard_answer heard length with ⟨res, rest, replies, isAnswer⟩
    rw [isAnswer, answer, Submission.uint32At_uint32Bytes] at code
    rcases outcome with ⟨jobid, queued⟩ | refused
    · rcases queued.accepted with ⟨req, accepted, _⟩
      rcases accepted.replied with ⟨only, isOnly, success, _⟩
      rw [replies, List.cons.injEq] at isOnly
      rw [← isOnly.1] at success
      exact absurd (Submission.ntohl_eq_zero.mp success) code
    · exact refused

/-- In whatever order the two call and whatever their calls return: a client that prints a job
number has its job queued under this number, with its request and the front of its file, and a
client that prints a rejection has left nothing behind. -/
theorem print_submits (strerror : Nat → Bytes) (stale : Bytes) {clientRounds rounds : Nat}
    (clientEnough : file.length < clientRounds) (enough : before.incoming.length < rounds)
    (noNumber : before.jobid = none) (noReplies : before.replies = []) (holds : before.jobs.Holds jobs)
    (reachable : Dialogue.Reachable (ClientStep behind) (DaemonStep incoming)
      ⟨submitFile clientRounds (header stack pwd fname nbytes text), clientThread strerror stale rounds,
        ⟨⟨file, [], []⟩, before, []⟩⟩ ⟨.done ending, .done (), after⟩) :
    Submitted jobs (Describes pwd fname nbytes text) file before ending after := by
  have linked : Linked behind after := by
    apply reachable.keeps
    · exact fun _ _ _ _ stepped linked => linked.client stepped
    · exact fun _ _ _ _ stepped linked => linked.daemon stepped
    · exact ⟨List.nil_prefix, List.nil_prefix⟩
  have told := @Dialogue.Reachable.left_always _ _ _ _ _ Process _ _ _ _ _ _ World.client _ _ _ reachable
    (fun _ _ _ _ stepped => stepped.outcome) (fun _ _ _ _ stepped => stepped.client)
    (SubmitFile.submitFile_told clientEnough (header stack pwd fname nbytes text))
  have ends := @Dialogue.Reachable.right_always _ _ _ _ _ Server _ _ _ _ _ _ World.server _ _ _ reachable
    (fun _ _ _ _ stepped => stepped.receives.1) (fun _ _ _ _ stepped => stepped.server)
    (Submission.clientThread_ends Submission.connection_outcome strerror stale noNumber noReplies holds enough)
  have queues := @Dialogue.Reachable.right_always _ _ _ _ _ (Server × Bytes) _ _ _ _ _ _
    (fun world => (world.server, world.received)) _ _ _ reachable
    (fun _ _ _ _ stepped => stepped.receives)
    (fun _ _ _ _ stepped => Prod.ext stepped.server stepped.received)
    (Submission.clientThread_queues rounds (before, []))
  apply submitted_of_told told linked.heard
  · rw [List.length_append, PrintReq.bytes_length]
  · apply ends.imp_left
    intro ends
    exact queued_of_accepted holds rfl (linked.received.trans told.sent) ends queues

end Runs

/-! ## A file of four bytes -/

theorem noNul_a : ∀ byte ∈ Ascii.text "a", byte ≠ 0 := ne_of_all (by decide)

/-- The header of a user who is not in the password file. -/
def shortRequest : PrintReq := header Submission.noRequest none ⟨Ascii.text "a", noNul_a⟩ 4 false

/-- The client has sent everything, and the daemon has not started. -/
def allSent : World where
  client := ⟨[], shortRequest.bytes ++ Ascii.text "%!PS", []⟩
  server := Submission.stalled
  received := []

theorem client_step {LeftResult RightResult : Type} {incoming : Except Nat Bytes}
    {call : SubmitFile.Call} {next : SubmitFile.Response call → SubmitFile.Client LeftResult}
    {response : SubmitFile.Response call} {client : Process} {world : World}
    {daemon : Submission.Thread RightResult}
    (outcome : SubmitFile.Outcomes call world.client response client)
    (heard : client.heard <+: world.server.replies.flatMap (answer fun _ => [])) :
    Dialogue.Step (ClientStep fun _ => []) (DaemonStep incoming) ⟨.call call next, daemon, world⟩
      ⟨next response, daemon, { world with client := client }⟩ :=
  .left ⟨outcome, rfl, rfl, heard⟩

theorem daemon_step {LeftResult RightResult : Type} {incoming : Except Nat Bytes}
    {call : Submission.Call} {next : Submission.Response call → Submission.Thread RightResult}
    {response : Submission.Response call} {server : Server} {world : World}
    {client : SubmitFile.Client LeftResult}
    (answered : Connection incoming call world.server response server)
    (sent : world.received ++ Submission.taken call response <+: world.client.sent) :
    Dialogue.Step (ClientStep fun _ => []) (DaemonStep incoming) ⟨client, .call call next, world⟩
      ⟨client, next response, { world with
        server := server, received := world.received ++ Submission.taken call response }⟩ :=
  .right ⟨⟨answered, rfl⟩, rfl, sent⟩

theorem daemon_quiet {LeftResult RightResult : Type} {incoming : Except Nat Bytes}
    {call : Submission.Call} {next : Submission.Response call → Submission.Thread RightResult}
    {response : Submission.Response call} {server : Server} {world : World}
    {client : SubmitFile.Client LeftResult}
    (answered : Connection incoming call world.server response server)
    (sent : world.received <+: world.client.sent) (nothing : Submission.taken call response = []) :
    Dialogue.Step (ClientStep fun _ => []) (DaemonStep incoming) ⟨client, .call call next, world⟩
      ⟨client, next response, { world with server := server }⟩ := by
  have sameBytes : world.received ++ Submission.taken call response = world.received := by
    rw [nothing, List.append_nil]
  exact .right ⟨⟨answered, sameBytes.symm⟩, rfl, sent⟩

theorem sends_all (daemon : Submission.Thread Unit) :
    Dialogue.Reachable (ClientStep fun _ => []) (DaemonStep (.ok shortRequest.bytes))
      ⟨submitFile 5 shortRequest, daemon, ⟨⟨Ascii.text "%!PS", [], []⟩, Submission.stalled, []⟩⟩
      ⟨SubmitFile.readResponse, daemon, allSent⟩ := by
  have size : (shortRequest.bytes.length : Int) = PRINTREQ_SIZE := by rw [PrintReq.bytes_length]
  refine .head (client_step (.writen _ (Nat.le_refl _)) List.nil_prefix) ?_
  dsimp only [Program.bind]
  rw [if_neg (not_not.mpr size), List.take_length, List.nil_append]
  have first : (Ascii.text "%!PS") = Ascii.text "%!PS" ++ [] := rfl
  refine .head (client_step (.read first (by decide) (fun _ => rfl)) List.nil_prefix) ?_
  refine .head (client_step (.writen _ (Nat.le_refl _)) List.nil_prefix) ?_
  have nothing : ([] : Bytes) = [] ++ [] := rfl
  refine .head (client_step (.read nothing (Nat.zero_le _) (fun _ => rfl)) List.nil_prefix) ?_
  exact .refl

def accepting : PrintResp where
  retcode := 0
  jobid := htonl (Submission.toUint32 7)
  msg := Ascii.text "request ID " ++ JobNumbers.printInt 7

theorem reads_update (files : Bytes → Option Bytes) (name content : Bytes) :
    Function.update files name (some content) name = some content := Function.update_self _ _ _

/-- The job is queued, and the answer is on its way. -/
theorem daemon_accepts : ∃ after, Dialogue.Reachable (ClientStep fun _ => [])
    (DaemonStep (.ok shortRequest.bytes))
    ⟨submitFile 5 shortRequest, clientThread (fun _ => []) [] 2,
      ⟨⟨Ascii.text "%!PS", [], []⟩, Submission.stalled, []⟩⟩
    ⟨SubmitFile.readResponse, .done (), after⟩ ∧ after.client = allSent.client ∧
      after.server.replies = [accepting] := by
  have size : shortRequest.bytes.length = PRINTREQ_SIZE := PrintReq.bytes_length _
  have sent := sends_all (clientThread (fun _ => []) [] 2)
  have working := sent.tail (daemon_quiet ⟨.addWorker true _, trivial⟩ List.nil_prefix rfl)
  have front : shortRequest.bytes <+: shortRequest.bytes ++ Ascii.text "%!PS" := List.prefix_append _ _
  have headed := working.tail (daemon_step ⟨.treadn _ size.le, rfl⟩ front)
  dsimp only [Program.bind] at headed
  rw [dif_pos size] at headed
  have number : Submission.IsInt32 7 := ⟨by decide, by decide⟩
  have numbered := headed.tail (daemon_quiet ⟨.getNewjobno number rfl rfl, trivial⟩ front rfl)
  have created := numbered.tail (daemon_quiet ⟨.creat 0 _, trivial⟩ front rfl)
  have arrived := created.tail (daemon_step ⟨.tread rfl (by decide), fun noData => noData.elim⟩
    (List.prefix_refl _))
  have all : shortRequest.bytes ++ Ascii.text "%!PS" <+: shortRequest.bytes ++ Ascii.text "%!PS" :=
    List.prefix_refl _
  dsimp only at arrived
  have stored := arrived.tail
    (daemon_quiet ⟨.write (reads_update allSent.server.files (spoolName DATADIR 7) []) (Nat.le_refl _), trivial⟩ all rfl)
  have ended := stored.tail (daemon_quiet ⟨.treadEnd _ _, fun _ => rfl⟩ all rfl)
  have closed := ended.tail (daemon_quiet ⟨.close _ _, trivial⟩ all rfl)
  have opened := closed.tail (daemon_quiet ⟨.creat 0 _, trivial⟩ all rfl)
  have wrote := opened.tail (daemon_quiet
    ⟨.write (reads_update (fun _ => none) (spoolName Submission.REQDIR 7) []) (PrintReq.bytes_length _).ge, trivial⟩ all rfl)
  have done := wrote.tail (daemon_quiet ⟨.close _ _, trivial⟩ all rfl)
  have replied := done.tail (daemon_quiet ⟨.writen _ _, trivial⟩ all rfl)
  have isFree : (1 : Address) ∉ (∅ : Heap (JobQueue.Job PrintReq)) := Finmap.notMem_empty
  have queued := replied.tail (daemon_quiet ⟨.addJob isFree rfl, trivial⟩ all rfl)
  exact ⟨_, queued, rfl, rfl⟩

theorem client_prints : ∃ after, Dialogue.Reachable (ClientStep fun _ => [])
    (DaemonStep (.ok shortRequest.bytes))
    ⟨submitFile 5 shortRequest, clientThread (fun _ => []) [] 2,
      ⟨⟨Ascii.text "%!PS", [], []⟩, Submission.stalled, []⟩⟩ ⟨.done (.jobID 7), .done (), after⟩ := by
  rcases daemon_accepts with ⟨queued, reached, client, replies⟩
  have silent : queued.client.heard = [] := by rw [client, allSent]
  have heard : queued.client.heard ++ answer (fun _ => []) accepting <+:
      queued.server.replies.flatMap (answer fun _ => []) := by
    rw [silent, replies, List.flatMap_singleton, List.nil_append]
  have success : uint32At (answer (fun _ => []) accepting) 0 = 0 := by
    rw [answer, Submission.uint32At_uint32Bytes]
    rfl
  have number : ntohl (uint32At (answer (fun _ => []) accepting) 4) = 7 := by
    rw [answer, Submission.uint32At_four]
    decide
  have told := reached.tail (client_step (.readn _ answer_length.le) heard)
  dsimp only [Program.bind] at told
  rw [if_neg (not_not.mpr answer_length), if_neg (not_not.mpr success), number] at told
  exact ⟨_, told⟩

theorem print_submits_short : ∃ after, Submitted []
    (Describes none ⟨Ascii.text "a", noNul_a⟩ 4 false) (Ascii.text "%!PS") Submission.stalled (.jobID 7) after := by
  rcases client_prints with ⟨after, reached⟩
  exact ⟨after, print_submits _ _ (by decide) (by decide) rfl rfl ⟨[], .empty _ _, .nil⟩ reached⟩

end Apue.Printer.Spooling
