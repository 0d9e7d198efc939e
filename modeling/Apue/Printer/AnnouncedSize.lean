import Apue.Printer.Submission

/-! # The size of a print job

The header of a request announces how many bytes the file has. `client_thread` of
`printer/printd.c` stores what it receives until a read gives nothing more, and does not
compare.
-/

namespace Apue.Printer.Submission

open Apue.Foundation Ascii
open JobNumbers (printInt)

/-- The field `size` of a request as it arrives. -/
def announcedSize (header : Bytes) : Nat := ntohl (uint32At header 0)

/-- What the calls return where the connection gives `header`, and then data as long as
there are pieces of it. -/
def Connection (header : Except Nat Bytes) (call : Call) (before : Server)
    (response : Response call) (after : Server) : Prop :=
  Outcomes call before response after ∧ match call, response with
    | .treadn _, response => response = header
    | .tread _, response => NoData response → before.incoming = []
    | _, _ => True

/-- A job that is queued and answered with 0 has as many bytes as its header announces. -/
def StoresAnnounced (header : Except Nat Bytes) (before after : Server) : Prop :=
  after.jobs ≠ before.jobs → (∃ res ∈ after.replies, ntohl res.retcode = 0) →
    ∃ bytes jobid data, header = .ok bytes ∧ after.jobid = some jobid ∧
      after.files (spoolName DATADIR jobid) = some data ∧ data.length = announcedSize bytes

/-- The daemon as a client finds it: nothing was answered yet, the jobs are in the list, a
number is free for the new one, and the data arrives in pieces of at most a buffer. -/
structure Ready (jobs : List (Int × PrintReq)) (server : Server) : Prop where
  noNumber : server.jobid = none
  noReplies : server.replies = []
  holds : server.jobs.Holds jobs
  pieces : ∀ piece ∈ server.incoming, piece ≠ [] ∧ piece.length ≤ IOBUFSZ
  someFree : ∃ jobid, IsInt32 jobid ∧ server.files (spoolName DATADIR jobid) = none ∧
    server.files (spoolName REQDIR jobid) = none

section Sizes

variable {strerror : Nat → Bytes} {stale header : Bytes} {received : Except Nat Bytes}
  {jobs : List (Int × PrintReq)} {before after server : Server} {pieces : List Bytes}
  {jobid : Int} {bytes : Bytes}

theorem connection_outcome (call : Call) (before : Server) (response : Response call) (after : Server)
    (answered : Connection received call before response after) :
    Outcomes call before response after := answered.1

/-- The connection has no more data where the loop ends. -/
theorem takes_everything (takes : Takes (Connection received) before pieces) :
    pieces = before.incoming := by
  rcases takes with ⟨last, response, behind, split, ⟨outcome, empty⟩, noData⟩
  have lastEmpty : last.incoming = [] := empty noData
  have noneLeft : behind.incoming = [] := by
    cases outcome with
    | tread arrives =>
        rw [lastEmpty] at arrives
        cases arrives
    | treadEnd => exact lastEmpty
    | treadFails => exact lastEmpty
  rw [split, noneLeft, List.append_nil]

theorem holds_unique {memory : JobQueue.Memory PrintReq} {other : List (Int × PrintReq)}
    (holds : memory.Holds jobs) (holdsOther : memory.Holds other) : jobs.length = other.length := by
  rcases holds with ⟨entries, queue, cells⟩
  rcases holdsOther with ⟨entries', queue', cells'⟩
  have same := Heap.Path.unique queue.path queue'.path
  have sameLength := congrArg List.length same
  rw [List.length_map, List.length_map, cells.length_eq, cells'.length_eq] at sameLength
  exact sameLength

theorem Accepted.queues {req : PrintReq} (accepted : Accepted jobs before after jobid req)
    (holds : before.jobs.Holds jobs) : after.jobs ≠ before.jobs := by
  intro same
  have longer := accepted.queued
  rw [same] at longer
  have sameLength := holds_unique holds longer
  rw [List.length_append, List.length_singleton] at sameLength
  omega

/-- A job that is accepted has the bytes that the connection has given. -/
theorem clientThread_stores {rounds : Nat} (ready : Ready jobs before)
    (enough : before.incoming.length < rounds)
    (same : ∀ header, received = .ok header → header.length = PRINTREQ_SIZE →
      before.incoming.flatten.length = announcedSize header) :
    (clientThread strerror stale rounds).Always (Connection received) Permitted
      (fun _ after => StoresAnnounced received before after) before := by
  apply (clientThread_ends connection_outcome strerror stale ready.noNumber ready.noReplies
    ready.holds enough).mono
  intro _ after ends queued answered
  rcases ends with ⟨header, pieces, jobid, req, took, whole, takes, accepted, stored⟩ | refused
  · have isHeader : .ok header = received := took.2
    refine ⟨header, jobid, _, isHeader.symm, accepted.number, stored, ?_⟩
    rw [takes_everything takes]
    exact same header isHeader.symm whole
  · exact absurd refused.queue queued

/-- The loop can take everything from the connection. -/
theorem receiveData_runs (number : Nat) :
    ∀ rounds first req bytes server, server.incoming.length < rounds →
      (∀ piece ∈ server.incoming, piece ≠ [] ∧ piece.length ≤ IOBUFSZ) →
      Holding before jobid (some bytes) none [] server →
      ∃ req' after, Program.Runs (Connection received)
        (receiveData strerror stale (spoolName DATADIR jobid) ⟨number, spoolName DATADIR jobid⟩
          rounds first req) server (some req') after ∧
        Holding before jobid (some (bytes ++ server.incoming.flatten)) none [] after
  | 0, _, _, _, _, enough, _, _ => absurd enough (Nat.not_lt_zero _)
  | rounds + 1, first, req, bytes, server, enough, pieces, holding => by
      rw [receiveData]
      cases arrives : server.incoming with
      | nil =>
          have ended : Connection received (.tread IOBUFSZ) server (.ok [] : Except Nat Bytes) server :=
            ⟨.treadEnd _ _, fun _ => arrives⟩
          rw [List.flatten_nil, List.append_nil]
          exact ⟨req, server, .call ended (.done _ _), holding⟩
      | cons piece rest =>
          rcases pieces piece (by rw [arrives]; exact List.mem_cons_self) with ⟨nonempty, within⟩
          have took : Connection received (.tread IOBUFSZ) server (.ok piece : Except Nat Bytes)
              { server with incoming := rest } := by
            refine ⟨.tread arrives within, fun noData => ?_⟩
            cases piece with
            | nil => exact absurd rfl nonempty
            | cons byte piece => exact noData.elim
          have sofar : Holding before jobid (some bytes) none [] { server with incoming := rest } :=
            ⟨holding.files, holding.jobs, holding.number, holding.replies⟩
          have wrote : Connection received (.write ⟨number, spoolName DATADIR jobid⟩ piece)
              { server with incoming := rest } (.ok piece.length : Except Nat Nat) _ :=
            ⟨.write sofar.readsData (Nat.le_refl _), trivial⟩
          have longer := sofar.setData (some (bytes ++ piece.take piece.length))
          rw [List.take_length] at wrote longer
          have fewerRounds : rest.length < rounds := by
            rw [arrives, List.length_cons] at enough
            exact Nat.lt_of_succ_lt_succ enough
          rcases receiveData_runs number rounds false (markText stale first piece req) _ _ fewerRounds
            (fun other member => pieces other (by rw [arrives]; exact List.mem_cons_of_mem _ member))
            longer with ⟨req', after, run, holds⟩
          refine ⟨req', after, ?_, ?_⟩
          · cases piece with
            | nil => exact absurd rfl nonempty
            | cons byte piece =>
                apply Program.Runs.call took
                apply Program.Runs.call wrote
                have complete : writeError (.ok (byte :: piece).length) (byte :: piece).length = none :=
                  if_pos rfl
                dsimp only [Program.bind]
                rw [complete]
                exact run
          · rw [List.flatten_cons, ← List.append_assoc]
            exact holds

/-- Where no call fails the client is answered with 0. -/
theorem storeRequest_runs (req : PrintReq) (holds : before.jobs.Holds jobs)
    (holding : Holding before jobid (some bytes) none [] server) :
    ∃ after, Program.Runs (Connection received) (storeRequest strerror req jobid) server () after ∧
      ∃ res ∈ after.replies, ntohl res.retcode = 0 := by
  have created : Connection received (.creat (spoolName REQDIR jobid)) server
      (.ok ⟨0, spoolName REQDIR jobid⟩ : Except Nat Descriptor) _ := ⟨.creat 0 server, trivial⟩
  have empty := holding.setRequest (some [])
  have wrote : Connection received (.write ⟨0, spoolName REQDIR jobid⟩ req.bytes) _
      (.ok req.bytes.length : Except Nat Nat) _ :=
    ⟨.write empty.readsRequest (Nat.le_refl _), trivial⟩
  have stored := empty.setRequest (some ([] ++ req.bytes.take req.bytes.length))
  have replied := stored.reply
    { retcode := 0, jobid := htonl (toUint32 jobid), msg := text "request ID " ++ printInt jobid }
  rcases Infinite.exists_notMem_finset before.jobs.heap.keys with ⟨malloc, isFree⟩
  rw [Finmap.mem_keys] at isFree
  rcases JobQueue.addJob_holds holds isFree req jobid server.added with ⟨longer, isAdded, _⟩
  rw [← replied.jobs] at isFree isAdded
  have queued : Connection received (.addJob req jobid) _ () _ := ⟨.addJob isFree isAdded, trivial⟩
  have complete : writeError (.ok req.bytes.length) PRINTREQ_SIZE = none := if_pos req.bytes_length
  apply Exists.intro
  constructor
  · rw [storeRequest]
    apply Program.Runs.call created
    apply Program.Runs.call wrote
    dsimp only [Program.bind]
    rw [complete]
    apply Program.Runs.call ⟨.close _ _, trivial⟩
    apply Program.Runs.call ⟨.writen _ _, trivial⟩
    exact .call queued (.done _ _)
  · have success : ntohl 0 = 0 := by decide
    exact ⟨_, List.mem_append_right _ List.mem_cons_self, success⟩

/-- Where the size is another one, a job can be queued that does not have it. -/
theorem size_of_stores {rounds : Nat} (ready : Ready jobs before)
    (enough : before.incoming.length < rounds)
    (always : (clientThread strerror stale rounds).Always (Connection (.ok header)) Permitted
      (fun _ after => StoresAnnounced (.ok header) before after) before)
    (whole : header.length = PRINTREQ_SIZE) :
    before.incoming.flatten.length = announcedSize header := by
  rcases ready.someFree with ⟨jobid, isInt32, noData, noRequest⟩
  rw [clientThread] at always
  have working := always.answer ⟨.addWorker true before, trivial⟩
  rw [Bool.not_true, if_neg Bool.false_ne_true] at working
  have headed := working.answer ⟨.treadn before whole.le, rfl⟩
  dsimp only at headed
  rw [dif_pos whole] at headed
  have numbered := headed.answer ⟨.getNewjobno isInt32 noData noRequest, trivial⟩
  have created := numbered.answer ⟨.creat 0 _, trivial⟩
  have holding := (Holding.new noData noRequest ready.noReplies).setData (some [])
  rcases @receiveData_runs strerror stale (.ok header) before jobid 0 rounds true _ [] _
    (by exact enough) (by exact ready.pieces) holding with ⟨req, received, run, holding⟩
  have closed := (created.behind run).answer ⟨.close _ _, trivial⟩
  rcases @storeRequest_runs strerror (.ok header) jobs before received jobid _ req ready.holds holding with
    ⟨after, run, res, isReply, success⟩
  have stores := closed.result run
  have ends := ((storeRequest_ends isInt32 noData noRequest ready.holds holding req).mono_step
    connection_outcome).result run
  rcases ends with ⟨accepted, stored⟩ | refused
  · rcases stores (accepted.queues ready.holds) ⟨res, isReply, success⟩ with
      ⟨bytes, number, data, isHeader, isNumber, isData, size⟩
    rw [accepted.number, Option.some.injEq] at isNumber
    subst isNumber
    rw [stored, Option.some.injEq, List.nil_append] at isData
    cases isHeader
    rw [← size, ← isData]
  · exact absurd success (refused.replied res isReply)

/-- `client_thread` queues only jobs that have arrived completely if and only if the pieces up to
the first read without data have the announced size together. -/
theorem storesAnnounced_iff {rounds : Nat} (ready : Ready jobs before)
    (enough : before.incoming.length < rounds) :
    (clientThread strerror stale rounds).Always (Connection received) Permitted
        (fun _ after => StoresAnnounced received before after) before ↔
      ∀ header, received = .ok header → header.length = PRINTREQ_SIZE →
        before.incoming.flatten.length = announcedSize header := by
  constructor
  · rintro always header rfl whole
    exact size_of_stores ready enough always whole
  · exact clientThread_stores ready enough

end Sizes

/-- A request for a file of twelve bytes. -/
def twelveBytes : Bytes := [0, 0, 0, 12] ++ List.replicate 324 0

/-- The connection stalls behind the first piece. -/
def stalled : Server := { twoPieces with incoming := [text "%!PS"] }

theorem twelveBytes_length : twelveBytes.length = PRINTREQ_SIZE := by
  rw [twelveBytes, List.length_append, List.length_replicate]
  rfl

theorem twelveBytes_size : announcedSize twelveBytes = 12 := by decide

theorem Ready.ofPieces {pieces : List Bytes}
    (small : ∀ piece ∈ pieces, piece ≠ [] ∧ piece.length ≤ IOBUFSZ) :
    Ready [] { twoPieces with incoming := pieces } where
  noNumber := rfl
  noReplies := rfl
  holds := ⟨[], .empty _ _, .nil⟩
  pieces := small
  someFree := ⟨1, ⟨by decide, by decide⟩, rfl, rfl⟩

theorem storesAnnounced_twoPieces :
    (clientThread (fun _ => []) [] 3).Always (Connection (.ok twelveBytes)) Permitted
      (fun _ after => StoresAnnounced (.ok twelveBytes) twoPieces after) twoPieces := by
  apply (storesAnnounced_iff (Ready.ofPieces (by decide)) (by decide)).mpr
  rintro header isHeader _
  cases isHeader
  rw [twelveBytes_size]
  decide

/-- A third of the file is queued as the whole. -/
theorem not_storesAnnounced_stalled :
    ¬ (clientThread (fun _ => []) [] 2).Always (Connection (.ok twelveBytes)) Permitted
      (fun _ after => StoresAnnounced (.ok twelveBytes) stalled after) stalled := by
  intro always
  have size := size_of_stores (Ready.ofPieces (by decide)) (by decide) always twelveBytes_length
  rw [twelveBytes_size] at size
  exact absurd size (by decide)

end Apue.Printer.Submission
