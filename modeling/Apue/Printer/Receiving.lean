import Apue.Printer.AnnouncedSize

/-! # What the daemon takes from a connection

The request that `client_thread` queues is that of the header it has received, and the file
is what came behind it.
-/

namespace Apue.Printer.Submission

open Apue.Foundation Ascii
open JobNumbers (printInt)

/-! ## The numbers of a message -/

section Numbers

variable {value : Nat} {front rest : Bytes}

theorem uint32At_uint32Bytes : uint32At (uint32Bytes value ++ rest) 0 = value % 4294967296 := by
  simp only [uint32At, uint32Bytes, List.cons_append, List.getD_cons_zero, List.getD_cons_succ,
    UInt8.toNat_ofNat']
  omega

theorem uint32At_four {first : Nat} :
    uint32At (uint32Bytes first ++ (uint32Bytes value ++ rest)) 4 = value % 4294967296 := by
  simp only [uint32At, uint32Bytes, List.cons_append, List.getD_cons_zero, List.getD_cons_succ,
    UInt8.toNat_ofNat', List.nil_append]
  omega

theorem ntohl_mod : ntohl (value % 4294967296) = ntohl value := by
  simp only [ntohl, htonl]
  omega

theorem ntohl_eq_zero : ntohl value = 0 ↔ value % 4294967296 = 0 := by
  simp only [ntohl, htonl]
  omega

theorem ntohl_htonl_mod : ntohl (htonl value) = value % 4294967296 := by
  have small : htonl value = htonl (value % 4294967296) := ntohl_mod.symm
  rw [small, ntohl_htonl (Nat.mod_lt _ (by decide))]

end Numbers

/-! ## The request of a header -/

/-- The request has the size and the names of the header, and its flags, or one more for plain text. -/
structure Carries (header : Bytes) (req : PrintReq) : Prop where
  size : req.size = announcedSize header
  flags : req.flags = ntohl (uint32At header 4) ∨ req.flags = ntohl (uint32At header 4) ||| PR_TEXT
  usernm : req.usernm = (header.drop 8).take USERNM_MAX
  jobnm : req.jobnm = (header.drop 72).take JOBNM_MAX

theorem carries_ofBytes {header : Bytes} (whole : header.length = PRINTREQ_SIZE) :
    Carries header { PrintReq.ofBytes header whole with
      size := ntohl (PrintReq.ofBytes header whole).size
      flags := ntohl (PrintReq.ofBytes header whole).flags } :=
  ⟨rfl, Or.inl rfl, rfl, rfl⟩

theorem Carries.markText {header : Bytes} {req : PrintReq} (carries : Carries header req) (stale : Bytes)
    (first : Bool) (chunk : Bytes) : Carries header (markText stale first chunk req) := by
  rw [Submission.markText]
  split
  · refine ⟨carries.size, ?_, carries.usernm, carries.jobnm⟩
    rcases carries.flags with same | marked
    · exact Or.inr (by rw [same])
    · exact Or.inr (by rw [marked, Nat.or_assoc, Nat.or_self])
  · exact carries

/-! ## The bytes that are taken -/

def got : Except Nat Bytes → Bytes
  | .ok bytes => bytes
  | .error _ => []

/-- What a call takes from the connection. -/
def taken : (call : Call) → Response call → Bytes
  | .treadn _, response => got response
  | .tread _, response => got response
  | _, _ => []

/-- A call of the daemon, with all that it has received. -/
def Receives (header : Except Nat Bytes) (call : Call) (before : Server × Bytes)
    (response : Response call) (after : Server × Bytes) : Prop :=
  Connection header call before.1 response after.1 ∧ after.2 = before.2 ++ taken call response

/-- The queue, what is still to come and what has been received. -/
def observe (view : Server × Bytes) : JobQueue.Memory PrintReq × List Bytes × Bytes :=
  (view.1.jobs, view.1.incoming, view.2)

def Quiet : Call → Prop
  | .treadn _ => False
  | .tread _ => False
  | .addJob _ _ => False
  | _ => True

section Receives

variable {header : Except Nat Bytes} {call : Call} {before after view : Server × Bytes}
  {response : Response call} {strerror : Nat → Bytes} {stale : Bytes}
  {jobs : JobQueue.Memory PrintReq} {received : Bytes}

theorem observe_quiet (quiet : Quiet call) (answered : Receives header call before response after) :
    observe after = observe before := by
  rcases before with ⟨server, received⟩
  rcases after with ⟨later, more⟩
  rcases answered with ⟨⟨outcome, _⟩, appended⟩
  dsimp only at outcome appended
  rw [observe, appended]
  cases outcome with
  | treadn | treadnFails | tread | treadEnd | treadFails | addJob => exact quiet.elim
  | _ => exact Prod.ext rfl (Prod.ext rfl (List.append_nil received))

/-- A quiet call in front of the rest of a program. -/
theorem always_quiet {Result : Type} {rest : Response call → Thread Result}
    {post : Result → Server × Bytes → Prop} (quiet : Quiet call)
    (continued : ∀ response after, observe after = observe view →
      (rest response).Always (Receives header) (fun _ _ => True) post after) :
    (Program.perform call >>= rest).Always (Receives header) (fun _ _ => True) post view := by
  apply Program.Always.call (by trivial)
  intro response after answered
  exact continued response after (observe_quiet quiet answered)

/-- Everything has come that will come. -/
theorem observe_noData {response : Except Nat Bytes} (noData : NoData response)
    (answered : Receives header (.tread IOBUFSZ) before response after) :
    before.1.incoming = [] ∧ observe after = observe before := by
  rcases before with ⟨server, received⟩
  rcases after with ⟨later, more⟩
  rcases answered with ⟨⟨outcome, empty⟩, appended⟩
  dsimp only at outcome appended empty
  have isEmpty := empty noData
  rw [observe, appended]
  cases outcome with
  | tread arrives =>
      rw [isEmpty] at arrives
      cases arrives
  | treadEnd => exact ⟨isEmpty, Prod.ext rfl (Prod.ext rfl (List.append_nil received))⟩
  | treadFails => exact ⟨isEmpty, Prod.ext rfl (Prod.ext rfl (List.append_nil received))⟩

theorem observe_tread {chunk : Bytes} (nonempty : chunk ≠ [])
    (answered : Receives header (.tread IOBUFSZ) before (.ok chunk : Except Nat Bytes) after) :
    ∃ rest, before.1.incoming = chunk :: rest ∧ observe after = (before.1.jobs, rest, before.2 ++ chunk) := by
  rcases before with ⟨server, received⟩
  rcases after with ⟨later, more⟩
  rcases answered with ⟨⟨outcome, _⟩, appended⟩
  dsimp only at outcome appended
  rw [observe, appended]
  cases outcome with
  | @tread _ _ rest _ arrives =>
      exact ⟨rest, arrives, rfl⟩
  | treadEnd => exact absurd rfl nonempty

/-! ## The walk through the thread -/

/-- The daemon has the header and the whole file, and has queued nothing yet. -/
theorem receiveData_receives {whole bytes : Bytes} {name : Bytes} {fd : Descriptor} :
    ∀ (rounds : Nat) (first : Bool) (req : PrintReq) (view : Server × Bytes), Carries bytes req →
      view.1.jobs = jobs → view.2 ++ view.1.incoming.flatten = whole →
      (receiveData strerror stale name fd rounds first req).Always (Receives header) (fun _ _ => True)
        (fun result after => after.1.jobs = jobs ∧ ∀ req, result = some req →
          Carries bytes req ∧ observe after = (jobs, [], whole)) view
  | 0, _, _, _, _, _, _ => ⟨trivial, fun never => Empty.elim never⟩
  | rounds + 1, first, req, view, carries, sameJobs, split => by
      rw [receiveData]
      apply Program.Always.call (by trivial)
      intro response after answered
      have ended : ∀ response : Except Nat Bytes, NoData response →
          Receives header (.tread IOBUFSZ) view response after → observe after = (jobs, [], whole) := by
        intro response noData answered
        rcases observe_noData noData answered with ⟨empty, same⟩
        rw [empty, List.flatten_nil, List.append_nil] at split
        rw [same, observe, empty, sameJobs, split]
      cases response with
      | error errno =>
          have observed := ended _ (by trivial) answered
          refine ⟨congrArg Prod.fst observed, fun _ isReq => ?_⟩
          cases isReq
          exact ⟨carries, observed⟩
      | ok chunk =>
          cases chunk with
          | nil =>
              have observed := ended _ (by trivial) answered
              refine ⟨congrArg Prod.fst observed, fun _ isReq => ?_⟩
              cases isReq
              exact ⟨carries, observed⟩
          | cons byte chunk =>
              rcases observe_tread (List.cons_ne_nil byte chunk) answered with ⟨rest, arrives, observed⟩
              apply always_quiet (by trivial)
              intro nw written sameWritten
              rw [observed] at sameWritten
              have keepsJobs : written.1.jobs = jobs := (congrArg Prod.fst sameWritten).trans sameJobs
              split
              · apply receiveData_receives rounds false _ written (carries.markText stale first _) keepsJobs
                have incoming : written.1.incoming = rest := congrArg (fun seen => seen.2.1) sameWritten
                have received : written.2 = view.2 ++ byte :: chunk :=
                  congrArg (fun seen => seen.2.2) sameWritten
                rw [incoming, received, List.append_assoc, ← split, arrives, List.flatten_cons]
              · apply always_quiet (by trivial)
                intro _ closed sameClosed
                apply always_quiet (by trivial)
                intro _ replied sameReplied
                apply always_quiet (by trivial)
                intro _ removed sameRemoved
                have same := (sameRemoved.trans sameReplied).trans (sameClosed.trans sameWritten)
                refine ⟨(congrArg Prod.fst same).trans sameJobs, fun _ isReq => ?_⟩
                cases isReq

/-- What is queued is the request of the header, behind which everything was received. -/
def QueuesHeader (header : Except Nat Bytes) (before after : Server × Bytes) : Prop :=
  after.1.jobs = before.1.jobs ∨ ∃ bytes req jobid malloc, header = .ok bytes ∧ Carries bytes req ∧
    malloc ∉ before.1.jobs.heap ∧
    (∃ added, JobQueue.addJob before.1.jobs malloc req jobid added = some after.1.jobs) ∧
    after.2 = before.2 ++ bytes ++ before.1.incoming.flatten

theorem storeRequest_queues {bytes : Bytes} {req : PrintReq} {before : Server × Bytes}
    (isHeader : header = .ok bytes) (carries : Carries bytes req)
    (observed : observe view = (before.1.jobs, [], before.2 ++ bytes ++ before.1.incoming.flatten))
    (jobid : Int) :
    (storeRequest strerror req jobid).Always (Receives header) (fun _ _ => True)
      (fun _ after => QueuesHeader header before after) view := by
  have unchanged : ∀ after, observe after = observe view → QueuesHeader header before after :=
    fun after same => Or.inl (congrArg Prod.fst (same.trans observed))
  rw [storeRequest]
  apply always_quiet (by trivial)
  intro created opened sameOpened
  cases created with
  | error errno =>
      apply always_quiet (by trivial)
      intro _ replied sameReplied
      apply always_quiet (by trivial)
      intro _ removed sameRemoved
      exact unchanged _ (sameRemoved.trans (sameReplied.trans sameOpened))
  | ok fd =>
      apply always_quiet (by trivial)
      intro nw written sameWritten
      have same := sameWritten.trans sameOpened
      dsimp only
      split
      · apply always_quiet (by trivial)
        intro _ closed sameClosed
        apply always_quiet (by trivial)
        intro _ replied sameReplied
        apply always_quiet (by trivial)
        intro _ removed sameRemoved
        apply always_quiet (by trivial)
        intro _ gone sameGone
        exact unchanged _ ((sameGone.trans sameRemoved).trans (sameReplied.trans (sameClosed.trans same)))
      · apply always_quiet (by trivial)
        intro _ closed sameClosed
        apply always_quiet (by trivial)
        intro _ replied sameReplied
        have beforeAdd := (sameReplied.trans (sameClosed.trans same)).trans observed
        refine ⟨trivial, ?_⟩
        rintro _ ⟨later, received⟩ ⟨⟨outcome, _⟩, appended⟩
        cases outcome with
        | @addJob _ _ _ malloc queued isFree isAdded =>
            have sameJobs : replied.1.jobs = before.1.jobs := congrArg Prod.fst beforeAdd
            rw [sameJobs] at isFree isAdded
            refine Or.inr ⟨bytes, req, jobid, malloc, isHeader, carries, isFree, ⟨_, isAdded⟩, ?_⟩
            rw [appended]
            exact (List.append_nil _).trans (congrArg (fun seen => seen.2.2) beforeAdd)

theorem clientThread_queues (rounds : Nat) (before : Server × Bytes) :
    (clientThread strerror stale rounds).Always (Receives header) (fun _ _ => True)
      (fun _ after => QueuesHeader header before after) before := by
  have unchanged : ∀ after, observe after = observe before → QueuesHeader header before after :=
    fun after same => Or.inl (congrArg Prod.fst same)
  rw [clientThread]
  apply always_quiet (by trivial)
  intro isWorker working sameWorking
  cases isWorker with
  | false => exact unchanged working sameWorking
  | true =>
      rw [Bool.not_true, if_neg Bool.false_ne_true]
      apply Program.Always.call (by trivial)
      rintro response ⟨server, received⟩ ⟨⟨outcome, isHeader⟩, appended⟩
      have sameServer : server = working.1 := by cases outcome <;> rfl
      subst sameServer
      have refused : ∀ code, (Thread.writen (refusal strerror code)).Always (Receives header)
          (fun _ _ => True) (fun _ after => QueuesHeader header before after) (working.1, received) := by
        intro code
        refine ⟨trivial, fun _ after answered => ?_⟩
        exact Or.inl ((congrArg Prod.fst (observe_quiet (by trivial) answered)).trans
          (congrArg Prod.fst sameWorking))
      cases response with
      | error errno => exact refused errno
      | ok bytes =>
          dsimp only
          split
          · rename_i whole
            have here : observe (working.1, received) =
                (before.1.jobs, before.1.incoming, before.2 ++ bytes) := by
              have sameJobs : working.1.jobs = before.1.jobs := congrArg Prod.fst sameWorking
              have sameIncoming : working.1.incoming = before.1.incoming :=
                congrArg (fun seen => seen.2.1) sameWorking
              have sameBytes : working.2 = before.2 := congrArg (fun seen => seen.2.2) sameWorking
              have isReceived : received = working.2 ++ bytes := appended
              rw [observe, sameJobs, sameIncoming, isReceived, sameBytes]
            apply always_quiet (by trivial)
            intro jobid numbered sameNumbered
            apply always_quiet (by trivial)
            intro created opened sameOpened
            have sofar := (sameOpened.trans sameNumbered).trans here
            cases created with
            | error errno =>
                refine ⟨trivial, fun _ after answered => ?_⟩
                exact Or.inl ((congrArg Prod.fst (observe_quiet (by trivial) answered)).trans
                  (congrArg Prod.fst sofar))
            | ok fd =>
                apply Program.Always.bind
                have split : opened.2 ++ opened.1.incoming.flatten =
                    before.2 ++ bytes ++ before.1.incoming.flatten :=
                  congrArg (fun seen => seen.2.2 ++ seen.2.1.flatten) sofar
                apply (receiveData_receives rounds true _ opened (carries_ofBytes whole)
                  (congrArg Prod.fst sofar) split).mono
                rintro result stored ⟨sameJobs, ends⟩
                cases result with
                | none => exact Or.inl sameJobs
                | some req =>
                    rcases ends req rfl with ⟨carries, observed⟩
                    apply always_quiet (by trivial)
                    intro _ closed sameClosed
                    exact storeRequest_queues isHeader.symm carries (sameClosed.trans observed) jobid
          · exact refused EIO

end Receives

/-- A request without names. -/
def noRequest : PrintReq where
  size := 0
  flags := 0
  usernm := List.replicate USERNM_MAX 0
  jobnm := List.replicate JOBNM_MAX 0
  usernmSize := List.length_replicate
  jobnmSize := List.length_replicate

end Apue.Printer.Submission
