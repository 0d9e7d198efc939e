import Apue.Foundation.Run
import Apue.Printer.JobNumbers

/-! # The spool directory and the job queue

A job of the print daemon has a data file, a request file and an entry in the queue.
Client threads create them, `build_qonstart` queues what an earlier run has left, and
the printer thread removes them. A step is one system call with its outcome, and files
are named by their job numbers. The queue is the list that `add_job`, `remove_job` and
`replace_job` keep.
-/

namespace Apue.Printer.Spool

open Apue.Foundation
open JobNumbers (succJobno)

/-- The main thread in `build_qonstart`, and behind it. -/
inductive MainThread
  | opening
  | scanning
  | reading (jobid : Int)
  | opened (jobid : Int)
  | discarding (jobid : Int)
  | serving
  deriving DecidableEq

/-- How far a client thread has come with its job. -/
inductive Stage
  | assigned
  | receiving
  | committing
  | committed
  | withdrawing
  deriving DecidableEq

/-- The printer thread and the job in its hands. -/
inductive PrinterThread
  | waiting
  | opening (jobid : Int)
  | checking (jobid : Int)
  | sending (jobid : Int)
  | printed (jobid : Int)
  | unlinking (jobid : Int)
  deriving DecidableEq

/-- `unread` has the request files that `readdir` has yet to return. The jobs that have
`left` the queue for good are history. -/
structure Daemon where
  nextjob : Int
  data : Finset Int
  reqs : Finset Int
  main : MainThread
  unread : List Int
  clients : List (Int × Stage)
  queue : List Int
  printer : PrinterThread
  left : List Int
  deriving DecidableEq

/-- The daemon starts with the files that an earlier run has left. -/
def Daemon.initial (nextjob : Int) (entries : List Int) (data : Finset Int) : Daemon where
  nextjob := nextjob
  data := data
  reqs := entries.toFinset
  main := .opening
  unread := entries
  clients := []
  queue := []
  printer := .waiting
  left := []

inductive MainCall
  | opendir (succeeds : Bool)
  | readdir (returnsEntry : Bool)
  | openReq (succeeds : Bool)
  | readReq (whole : Bool)
  | unlinkData
  deriving DecidableEq

inductive ClientCall
  | creatData (succeeds : Bool)
  | writeData (succeeds : Bool)
  | creatReq (succeeds : Bool)
  | writeReq (succeeds : Bool)
  | unlinkData
  | addJob
  deriving DecidableEq

/-- `print` stands for all that is done between `connect_retry` and `printer_status`. -/
inductive PrinterCall
  | pickUp
  | openData (succeeds : Bool)
  | fstat (succeeds : Bool)
  | print (succeeds : Bool)
  | unlinkData
  | unlinkReq
  deriving DecidableEq

inductive Action
  | main (call : MainCall)
  | getNewjobno
  | client (jobid : Int) (call : ClientCall)
  | printer (call : PrinterCall)
  deriving DecidableEq

/-- `build_qonstart`. -/
def mainStep (daemon : Daemon) (call : MainCall) : Option Daemon :=
  match daemon.main, call with
  | .opening, .opendir true => some { daemon with main := .scanning }
  | .opening, .opendir false => some { daemon with main := .serving, unread := [] }
  | .scanning, .readdir true =>
      match daemon.unread with
      | [] => none
      | jobid :: unread => some { daemon with main := .reading jobid, unread }
  -- The end of the directory and an error look alike.
  | .scanning, .readdir false => some { daemon with main := .serving, unread := [] }
  | .reading jobid, .openReq true =>
      if jobid ∈ daemon.reqs then some { daemon with main := .opened jobid } else none
  | .reading _, .openReq false => some { daemon with main := .scanning }
  | .opened jobid, .readReq true =>
      some { daemon with main := .scanning, queue := daemon.queue ++ [jobid] }
  | .opened jobid, .readReq false =>
      some { daemon with main := .discarding jobid, reqs := daemon.reqs.erase jobid }
  | .discarding jobid, .unlinkData =>
      some { daemon with main := .scanning, data := daemon.data.erase jobid }
  | _, _ => none

def ClientCall.stage : ClientCall → Stage
  | .creatData _ => .assigned
  | .writeData _ => .receiving
  | .creatReq _ => .receiving
  | .writeReq _ => .committing
  | .unlinkData => .withdrawing
  | .addJob => .committed

/-- `client_thread`, from the job number on. -/
def clientStep (daemon : Daemon) (jobid : Int) (call : ClientCall) : Option Daemon :=
  if (jobid, call.stage) ∈ daemon.clients then
    let others := daemon.clients.erase (jobid, call.stage)
    match call with
    | .creatData true => some { daemon with
        data := insert jobid daemon.data, clients := (jobid, .receiving) :: others }
    | .creatData false => some { daemon with clients := others }
    | .writeData true => some daemon
    | .writeData false => some { daemon with
        data := daemon.data.erase jobid, clients := others }
    | .creatReq true => some { daemon with
        reqs := insert jobid daemon.reqs, clients := (jobid, .committing) :: others }
    | .creatReq false => some { daemon with
        data := daemon.data.erase jobid, clients := others }
    | .writeReq true => some { daemon with clients := (jobid, .committed) :: others }
    | .writeReq false => some { daemon with
        reqs := daemon.reqs.erase jobid, clients := (jobid, .withdrawing) :: others }
    | .unlinkData => some { daemon with
        data := daemon.data.erase jobid, clients := others }
    | .addJob => some { daemon with queue := daemon.queue ++ [jobid], clients := others }
  else none

/-- `printer_thread`. -/
def printerStep (daemon : Daemon) (call : PrinterCall) : Option Daemon :=
  match daemon.printer, call with
  | .waiting, .pickUp =>
      match daemon.queue with
      | [] => none
      | jobid :: queue => some { daemon with printer := .opening jobid, queue }
  | .opening jobid, .openData true =>
      if jobid ∈ daemon.data then some { daemon with printer := .checking jobid } else none
  -- The job is cancelled.
  | .opening jobid, .openData false =>
      some { daemon with printer := .waiting, left := jobid :: daemon.left }
  | .checking jobid, .fstat true => some { daemon with printer := .sending jobid }
  | .checking jobid, .fstat false =>
      some { daemon with printer := .waiting, left := jobid :: daemon.left }
  | .sending jobid, .print true => some { daemon with printer := .printed jobid }
  -- The job is deferred.
  | .sending jobid, .print false =>
      some { daemon with printer := .waiting, queue := jobid :: daemon.queue }
  | .printed jobid, .unlinkData =>
      some { daemon with printer := .unlinking jobid, data := daemon.data.erase jobid }
  | .unlinking jobid, .unlinkReq =>
      some { daemon with
        printer := .waiting, reqs := daemon.reqs.erase jobid, left := jobid :: daemon.left }
  | _, _ => none

def step (daemon : Daemon) : Action → Option Daemon
  | .main call => mainStep daemon call
  | .getNewjobno =>
      if daemon.main = .serving then some { daemon with
        nextjob := succJobno daemon.nextjob
        clients := (daemon.nextjob, .assigned) :: daemon.clients }
      else none
  | .client jobid call => clientStep daemon jobid call
  | .printer call => printerStep daemon call

/-! ## What is said of the files -/

/-- `build_qonstart` still has to deal with the request. -/
def Daemon.Pending (daemon : Daemon) (jobid : Int) : Prop :=
  jobid ∈ daemon.unread ∨ daemon.main = .reading jobid ∨ daemon.main = .opened jobid

def PrinterThread.Prints (jobid : Int) : PrinterThread → Prop
  | .waiting => False
  | .opening other | .checking other | .sending other | .printed other | .unlinking other =>
      other = jobid

/-- A client thread has created the request file and is going to queue the job. -/
def Daemon.Committing (daemon : Daemon) (jobid : Int) : Prop :=
  (jobid, .committing) ∈ daemon.clients ∨ (jobid, .committed) ∈ daemon.clients

/-- The number belongs to a job that has not left. -/
def Daemon.InUse (daemon : Daemon) (jobid : Int) : Prop :=
  daemon.Pending jobid ∨ jobid ∈ daemon.queue ∨ daemon.printer.Prints jobid ∨
    ∃ stage, (jobid, stage) ∈ daemon.clients

/-- Job numbers may be used again: then the files are those of the new job. -/
structure Agrees (daemon : Daemon) : Prop where
  requests : ∀ jobid ∈ daemon.reqs, daemon.Pending jobid ∨ jobid ∈ daemon.queue ∨
    daemon.printer.Prints jobid ∨ daemon.Committing jobid
  left : ∀ jobid ∈ daemon.left, ¬ daemon.InUse jobid →
    jobid ∉ daemon.reqs ∧ jobid ∉ daemon.data

/-- No request is passed over when the daemon starts, and no job is cancelled that
still has one of its files. -/
def PassesNothingOver (daemon : Daemon) : Action → Prop
  | .main (.opendir false) => daemon.unread = []
  | .main (.readdir false) => daemon.unread = []
  | .main (.openReq false) => ∀ jobid, daemon.main = .reading jobid → jobid ∉ daemon.reqs
  | .printer (.openData false) | .printer (.fstat false) =>
      ∀ jobid, daemon.printer.Prints jobid → jobid ∉ daemon.reqs ∧ jobid ∉ daemon.data
  | _ => True

/-! ## What every step keeps -/

/-- The data file of a job whose files have been unlinked belongs to a later job. -/
structure Kept (daemon : Daemon) : Prop where
  requests : ∀ jobid ∈ daemon.reqs, daemon.Pending jobid ∨ jobid ∈ daemon.queue ∨
    daemon.printer.Prints jobid ∨ daemon.Committing jobid
  data : ∀ jobid ∈ daemon.data, jobid ∈ daemon.left ∨ daemon.printer = .unlinking jobid →
    jobid ∈ daemon.queue ∨
    (daemon.printer.Prints jobid ∧ daemon.printer ≠ .unlinking jobid) ∨
    ∃ stage, stage ≠ .assigned ∧ (jobid, stage) ∈ daemon.clients

section Steps

variable {daemon next : Daemon}

theorem Kept.agrees (kept : Kept daemon) : Agrees daemon where
  requests := kept.requests
  left := by
    intro jobid gone free
    constructor
    · intro member
      apply free
      rcases kept.requests jobid member with pending | queued | prints | committing | committed
      · exact Or.inl pending
      · exact Or.inr (Or.inl queued)
      · exact Or.inr (Or.inr (Or.inl prints))
      · exact Or.inr (Or.inr (Or.inr ⟨_, committing⟩))
      · exact Or.inr (Or.inr (Or.inr ⟨_, committed⟩))
    · intro member
      apply free
      rcases kept.data jobid member (Or.inl gone) with queued | ⟨prints, _⟩ | ⟨stage, _, client⟩
      · exact Or.inr (Or.inl queued)
      · exact Or.inr (Or.inr (Or.inl prints))
      · exact Or.inr (Or.inr (Or.inr ⟨stage, client⟩))

/-- `build_qonstart` queues a request or removes both its files. -/
theorem Kept.mainStep {call : MainCall} (kept : Kept daemon)
    (passes : PassesNothingOver daemon (.main call)) (stepped : mainStep daemon call = some next) :
    Kept next := by
  rcases kept with ⟨requests, data⟩
  simp only [Daemon.Pending, Daemon.Committing] at requests
  rw [Spool.mainStep.eq_def] at stepped
  cases isMain : daemon.main <;> rw [isMain] at stepped
  case opening =>
    cases call with
    | opendir succeeds =>
        -- Where the directory is not read, there is no request in it.
        cases succeeds <;> simp only [PassesNothingOver] at passes <;> cases stepped <;>
          constructor <;> grind [Daemon.Pending, Daemon.Committing]
    | _ => cases stepped
  case scanning =>
    cases call with
    | readdir returnsEntry =>
        cases returnsEntry with
        | true =>
            cases isUnread : daemon.unread <;> rw [isUnread] at stepped <;> cases stepped
            constructor <;> grind [Daemon.Pending, Daemon.Committing]
        | false =>
            simp only [PassesNothingOver] at passes
            cases stepped
            constructor <;> grind [Daemon.Pending, Daemon.Committing]
    | _ => cases stepped
  case reading jobid =>
    cases call with
    | openReq succeeds =>
        cases succeeds with
        | true =>
            rcases Option.ite_none_right_eq_some.mp stepped with ⟨_, isNext⟩
            cases isNext
            constructor <;> grind [Daemon.Pending, Daemon.Committing]
        | false =>
            have gone : jobid ∉ daemon.reqs := passes jobid isMain
            cases stepped
            constructor <;> grind [Daemon.Pending, Daemon.Committing]
    | _ => cases stepped
  case opened jobid =>
    cases call with
    | readReq whole =>
        cases whole <;> cases stepped <;> constructor <;>
          grind [Daemon.Pending, Daemon.Committing]
    | _ => cases stepped
  case discarding jobid =>
    cases call with
    | unlinkData =>
        cases stepped
        constructor <;> grind [Daemon.Pending, Daemon.Committing]
    | _ => cases stepped
  case serving => cases call <;> cases stepped

/-- A client thread that has created a file removes it or goes on to queue the job. -/
theorem Kept.clientStep {jobid : Int} {call : ClientCall} (kept : Kept daemon)
    (stepped : clientStep daemon jobid call = some next) : Kept next := by
  rcases kept with ⟨requests, data⟩
  simp only [Daemon.Pending, Daemon.Committing] at requests
  rcases Option.ite_none_right_eq_some.mp stepped with ⟨member, isNext⟩
  cases call with
  | creatData succeeds | writeData succeeds | creatReq succeeds | writeReq succeeds =>
      cases succeeds <;> cases isNext <;> constructor <;>
        grind [Daemon.Pending, Daemon.Committing, ClientCall.stage]
  | unlinkData | addJob =>
      cases isNext
      constructor <;> grind [Daemon.Pending, Daemon.Committing, ClientCall.stage]

/-- A job leaves the printer thread for the queue, or with its files gone. -/
theorem Kept.printerStep {call : PrinterCall} (kept : Kept daemon)
    (passes : PassesNothingOver daemon (.printer call))
    (stepped : printerStep daemon call = some next) : Kept next := by
  rcases kept with ⟨requests, data⟩
  simp only [Daemon.Pending, Daemon.Committing] at requests
  rw [Spool.printerStep.eq_def] at stepped
  cases isPrinter : daemon.printer <;> rw [isPrinter] at stepped
  case waiting =>
    cases call with
    | pickUp =>
        cases isQueue : daemon.queue <;> rw [isQueue] at stepped <;> cases stepped
        constructor <;> grind [Daemon.Pending, Daemon.Committing, PrinterThread.Prints]
    | _ => cases stepped
  case opening jobid =>
    cases call with
    | openData succeeds =>
        cases succeeds with
        | true =>
            rcases Option.ite_none_right_eq_some.mp stepped with ⟨_, isNext⟩
            cases isNext
            constructor <;> grind [Daemon.Pending, Daemon.Committing, PrinterThread.Prints]
        | false =>
            have gone : jobid ∉ daemon.reqs ∧ jobid ∉ daemon.data := by
              apply passes
              rw [isPrinter]
              rfl
            cases stepped
            constructor <;> grind [Daemon.Pending, Daemon.Committing, PrinterThread.Prints]
    | _ => cases stepped
  case checking jobid =>
    cases call with
    | fstat succeeds =>
        cases succeeds with
        | true =>
            cases stepped
            constructor <;> grind [Daemon.Pending, Daemon.Committing, PrinterThread.Prints]
        | false =>
            have gone : jobid ∉ daemon.reqs ∧ jobid ∉ daemon.data := by
              apply passes
              rw [isPrinter]
              rfl
            cases stepped
            constructor <;> grind [Daemon.Pending, Daemon.Committing, PrinterThread.Prints]
    | _ => cases stepped
  case sending jobid =>
    cases call with
    | print succeeds =>
        cases succeeds <;> cases stepped <;> constructor <;>
          grind [Daemon.Pending, Daemon.Committing, PrinterThread.Prints]
    | _ => cases stepped
  case printed jobid =>
    cases call with
    | unlinkData =>
        cases stepped
        constructor <;> grind [Daemon.Pending, Daemon.Committing, PrinterThread.Prints]
    | _ => cases stepped
  case unlinking jobid =>
    cases call with
    | unlinkReq =>
        cases stepped
        constructor <;> grind [Daemon.Pending, Daemon.Committing, PrinterThread.Prints]
    | _ => cases stepped

theorem Kept.step {action : Action} (kept : Kept daemon) (passes : PassesNothingOver daemon action)
    (stepped : step daemon action = some next) : Kept next := by
  cases action with
  | main call => exact kept.mainStep passes stepped
  | getNewjobno =>
      rcases Option.ite_none_right_eq_some.mp stepped with ⟨_, isNext⟩
      cases isNext
      rcases kept with ⟨requests, data⟩
      constructor <;> grind [Daemon.Pending, Daemon.Committing]
  | client jobid call => exact kept.clientStep stepped
  | printer call => exact kept.printerStep passes stepped

end Steps

theorem Kept.initial (nextjob : Int) (entries : List Int) (data : Finset Int) :
    Kept (.initial nextjob entries data) where
  requests := fun _ member => Or.inl (Or.inl (List.mem_toFinset.mp member))
  data := by
    rintro jobid _ (gone | unlinking)
    · cases gone
    · cases unlinking

/-- The files and the queue agree as long as nothing is passed over. -/
theorem spool_agrees (nextjob : Int) (entries : List Int) (data : Finset Int)
    (actions : List Action)
    (passes : EveryStep step PassesNothingOver (.initial nextjob entries data) actions) :
    EveryState step Agrees (.initial nextjob entries data) actions := by
  have kept : EveryState step Kept (.initial nextjob entries data) actions :=
    everyState_of_invariant (fun _ _ _ kept here stepped => kept.step here stepped)
      (.initial nextjob entries data) passes
  exact kept.mono fun _ kept => kept.agrees

/-- A job of an earlier run is printed. -/
theorem spool_agrees_printed :
    EveryState step Agrees (.initial 5 [4] {4})
      [.main (.opendir true), .main (.readdir true), .main (.openReq true),
        .main (.readReq true), .printer .pickUp, .printer (.openData true),
        .printer (.fstat true), .printer (.print true), .printer .unlinkData,
        .printer .unlinkReq] := by
  apply spool_agrees
  apply EveryStep.of_forall
  simp only [List.forall_mem_cons, List.not_mem_nil, PassesNothingOver]
  simp

/-- The data file of a queued job cannot be opened. -/
def cancelFirstJob : List Action :=
  [.main (.opendir true), .main (.readdir false), .getNewjobno, .client 1 (.creatData true),
    .client 1 (.creatReq true), .client 1 (.writeReq true), .client 1 .addJob,
    .printer .pickUp, .printer (.openData false)]

/-- The job is gone, and both its files are there. -/
theorem spool_disagrees : ¬ EveryState step Agrees (.initial 1 [] ∅) cancelFirstJob := by
  intro holds
  rcases Option.isSome_iff_exists.mp
    (by decide : (cancelFirstJob.foldlM step (.initial 1 [] ∅)).isSome = true) with ⟨daemon, ran⟩
  have isLast : daemon = { Daemon.initial 2 [] ∅ with
      data := {1}, reqs := {1}, main := .serving, left := [1] } := by
    apply Option.some.inj
    rw [← ran]
    decide
  have agrees := holds.last ran
  rw [isLast] at agrees
  rcases agrees.requests 1 (by decide) with pending | queued | prints | committing
  · rcases pending with unread | reading | opened
    · cases unread
    · cases reading
    · cases opened
  · cases queued
  · exact prints
  · rcases committing with committing | committed
    · cases committing
    · cases committed

end Apue.Printer.Spool
