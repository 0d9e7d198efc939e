import Apue.Foundation.Ascii
import Apue.Foundation.Run
import Mathlib.Data.Finset.Basic
import Mathlib.Data.Finset.SDiff

/-! # Job numbers of the print daemon

`get_newjobno` of `printer/printd.c` hands out the counter `nextjob`, which
lives in memory. Its copy in the job file is written by `update_jobno`, in the
printer thread, when a job is picked up. `init_request` reads the copy back
when the daemon starts, and `build_qonstart` queues the requests it finds in
the spool directory.
-/

namespace Apue.Printer.JobNumbers

open Apue.Foundation Ascii

def INT32_MAX : Int := 2147483647

/-- The value that a number has when it is stored in an `int32_t`. -/
def toInt32 (value : Int) : Int := value.bmod 4294967296

/-- `sprintf(buf, "%d", value)`. -/
def printInt (value : Int) : Bytes :=
  if value < 0 then 45 :: decimal value.natAbs else decimal value.natAbs

/-- `"/var/spool/printer/jobno"` with its NUL byte, which `init_request` leaves
in the buffer it then reads the job file into. -/
def jobFileName : Bytes :=
  [47, 118, 97, 114, 47, 115, 112, 111, 111, 108, 47, 112, 114, 105, 110, 116, 101, 114,
    47, 106, 111, 98, 110, 111, 0]

def FILENMSZ : Nat := 64

/-- The spool directory: the contents of the job file, and the numbers of the
files in `data` and in `reqs`. A file in `short` does not yet hold a whole
request. -/
structure Spool where
  jobno : Bytes
  data : Finset Int
  reqs : Finset Int
  short : Finset Int
  deriving DecidableEq

def Spool.files (spool : Spool) : Finset Int := spool.data ∪ spool.reqs

/-- The value that `init_request` gives to `nextjob`. -/
def initRequest (spool : Spool) : Int :=
  let read := spool.jobno.take FILENMSZ
  if read.length = 0 then 1
  else toInt32 (atol (read ++ jobFileName.drop read.length))

/-- `update_jobno` writes over the front of the job file and does not cut it. -/
def updateJobno (nextjob : Int) (spool : Spool) : Spool :=
  let buf := printInt nextjob
  { spool with jobno := buf ++ spool.jobno.drop buf.length }

/-- The counter after `get_newjobno`. -/
def succJobno (nextjob : Int) : Int :=
  let next := toInt32 (nextjob + 1)
  if next ≤ 0 then 1 else next

/-- How far a client thread has come with its job. -/
inductive Stage
  | assigned
  | receiving
  | committing
  | committed
  deriving DecidableEq

/-- The memory of a running daemon. -/
structure Memory where
  nextjob : Int
  clients : List (Int × Stage)
  queue : List Int
  printing : Option Int
  deriving DecidableEq

/-- A job number handed out, with the numbers that had spool files then. -/
structure Assignment where
  jobid : Int
  spooled : Finset Int
  deriving DecidableEq

/-- The daemon and its spool directory. The last two components are history:
the numbers handed out so far, and the data files that were created over an
existing one. -/
structure Daemon where
  spool : Spool
  memory : Option Memory
  assigned : List Assignment
  overwritten : List Int
  deriving DecidableEq

def Daemon.initial : Daemon where
  spool := { jobno := [], data := ∅, reqs := ∅, short := ∅ }
  memory := none
  assigned := []
  overwritten := []

inductive Action
  | getNewjobno
  | creatData (jobid : Int)
  | creatReq (jobid : Int)
  | writeReq (jobid : Int)
  | addJob (jobid : Int)
  | clientFails (jobid : Int)
  | pickUp
  | updateJobno
  | finishPrint
  | cancelJob
  | replaceJob
  | stop
  | restart (found : List Int) (removed : Finset Int)
  deriving DecidableEq

def advance (memory : Memory) (jobid : Int) (stage next : Stage) : Memory :=
  { memory with clients := (jobid, next) :: memory.clients.erase (jobid, stage) }

/-- A step of a client thread of a running daemon. -/
def clientStep (daemon : Daemon) (memory : Memory) : Action → Option Daemon
  | .getNewjobno => some { daemon with
      memory := some { memory with
        nextjob := succJobno memory.nextjob
        clients := (memory.nextjob, .assigned) :: memory.clients }
      assigned := { jobid := memory.nextjob, spooled := daemon.spool.files } ::
        daemon.assigned }
  | .creatData jobid =>
      if (jobid, .assigned) ∈ memory.clients then some { daemon with
        spool := { daemon.spool with data := insert jobid daemon.spool.data }
        memory := some (advance memory jobid .assigned .receiving)
        overwritten :=
          if jobid ∈ daemon.spool.data then jobid :: daemon.overwritten
          else daemon.overwritten }
      else none
  | .creatReq jobid =>
      if (jobid, .receiving) ∈ memory.clients then some { daemon with
        spool := { daemon.spool with
          reqs := insert jobid daemon.spool.reqs
          short := insert jobid daemon.spool.short }
        memory := some (advance memory jobid .receiving .committing) }
      else none
  | .writeReq jobid =>
      if (jobid, .committing) ∈ memory.clients then some { daemon with
        spool := { daemon.spool with short := daemon.spool.short.erase jobid }
        memory := some (advance memory jobid .committing .committed) }
      else none
  | .addJob jobid =>
      if (jobid, .committed) ∈ memory.clients then some { daemon with
        memory := some { memory with
          clients := memory.clients.erase (jobid, .committed)
          queue := memory.queue ++ [jobid] } }
      else none
  | .clientFails jobid =>
      -- The thread answers with an error and removes the files it has created.
      if (jobid, .assigned) ∈ memory.clients then some { daemon with
        memory := some { memory with
          clients := memory.clients.erase (jobid, .assigned) } }
      else if (jobid, .receiving) ∈ memory.clients then some { daemon with
        spool := { daemon.spool with data := daemon.spool.data.erase jobid }
        memory := some { memory with
          clients := memory.clients.erase (jobid, .receiving) } }
      else if (jobid, .committing) ∈ memory.clients then some { daemon with
        spool := { daemon.spool with
          data := daemon.spool.data.erase jobid
          reqs := daemon.spool.reqs.erase jobid
          short := daemon.spool.short.erase jobid }
        memory := some { memory with
          clients := memory.clients.erase (jobid, .committing) } }
      else none
  | _ => none

/-- A step of the printer thread of a running daemon. -/
def printerStep (daemon : Daemon) (memory : Memory) : Action → Option Daemon
  | .pickUp =>
      match memory.queue, memory.printing with
      | jobid :: queue, none => some { daemon with
          memory := some { memory with queue, printing := some jobid } }
      | _, _ => none
  | .updateJobno => some { daemon with
      spool := JobNumbers.updateJobno memory.nextjob daemon.spool }
  | .finishPrint => memory.printing.map fun jobid => { daemon with
      spool := { daemon.spool with
        data := daemon.spool.data.erase jobid
        reqs := daemon.spool.reqs.erase jobid
        short := daemon.spool.short.erase jobid }
      memory := some { memory with printing := none } }
  | .cancelJob => memory.printing.map fun _ => { daemon with
      memory := some { memory with printing := none } }
  | .replaceJob => memory.printing.map fun jobid => { daemon with
      memory := some { memory with
        queue := jobid :: memory.queue, printing := none } }
  | _ => none

/-- `init_request`, then `build_qonstart`, which queues the requests `found` in
the order in which it meets them. A request that it can open but not read whole
is removed together with its data. -/
def restart (daemon : Daemon) (found : List Int) (removed : Finset Int) :
    Option Daemon :=
  let spool := daemon.spool
  if removed ⊆ spool.reqs ∧ found.Nodup ∧
      found.toFinset ⊆ spool.reqs \ (removed ∪ spool.short) then some { daemon with
    spool := { spool with
      data := spool.data \ removed
      reqs := spool.reqs \ removed
      short := spool.short \ removed }
    memory := some
      { nextjob := initRequest spool, clients := [], queue := found, printing := none } }
  else none

def step (daemon : Daemon) (action : Action) : Option Daemon :=
  match daemon.memory, action with
  | none, .restart found removed => restart daemon found removed
  | some _, .stop => some { daemon with memory := none }
  | some memory, action =>
      (clientStep daemon memory action).or (printerStep daemon memory action)
  | none, _ => none

/-- Every number handed out was positive and had no spool file, and no data
file was created over another one. -/
def NoClash (daemon : Daemon) : Prop :=
  (∀ assignment ∈ daemon.assigned,
    0 < assignment.jobid ∧ assignment.jobid ∉ assignment.spooled) ∧
  daemon.overwritten = []

/-- What goes wrong is not reached: a restart finds a saved counter above
every job that has spool files, and the counter does not wrap around. -/
def CounterIsFresh (daemon : Daemon) : Action → Prop
  | .restart _ _ => 0 < initRequest daemon.spool ∧
      ∀ jobid ∈ daemon.spool.files, jobid < initRequest daemon.spool
  | .getNewjobno => ∀ memory, daemon.memory = some memory → memory.nextjob < INT32_MAX
  | _ => True

/-- The counter is above every number in use, and the numbers that client
threads hold are different and still without a data file when just assigned. -/
structure Ahead (spool : Spool) (memory : Memory) : Prop where
  positive : 0 < memory.nextjob
  files : ∀ jobid ∈ spool.files, jobid < memory.nextjob
  clients : ∀ client ∈ memory.clients, client.1 < memory.nextjob
  distinct : (memory.clients.map Prod.fst).Nodup
  unspooled : ∀ jobid, (jobid, Stage.assigned) ∈ memory.clients → jobid ∉ spool.data

/-- Files go, client threads end, and the counter stays. -/
theorem Ahead.shrink {spool spool' : Spool} {memory memory' : Memory}
    (ahead : Ahead spool memory) (counter : memory'.nextjob = memory.nextjob)
    (data : spool'.data ⊆ spool.data) (reqs : spool'.reqs ⊆ spool.reqs)
    (clients : memory'.clients.Sublist memory.clients) : Ahead spool' memory' where
  positive := counter ▸ ahead.positive
  files jobid member := by
    rw [counter]
    apply ahead.files
    exact Finset.union_subset_union data reqs member
  clients client member := counter ▸ ahead.clients client (clients.subset member)
  distinct := ahead.distinct.sublist (clients.map Prod.fst)
  unspooled jobid member inData :=
    ahead.unspooled jobid (clients.subset member) (data inData)

theorem Ahead.others {spool : Spool} {memory : Memory} (ahead : Ahead spool memory)
    {jobid : Int} {stage : Stage} (member : (jobid, stage) ∈ memory.clients) :
    jobid ∉ (memory.clients.erase (jobid, stage)).map Prod.fst := by
  have permutation := List.perm_cons_erase member
  have distinct := (permutation.map Prod.fst).nodup_iff.mp ahead.distinct
  exact (List.nodup_cons.mp distinct).1

/-- A client thread takes its next step and may create a file under its own
number. -/
theorem Ahead.advance {spool spool' : Spool} {memory : Memory} (ahead : Ahead spool memory)
    {jobid : Int} {stage next : Stage} (member : (jobid, stage) ∈ memory.clients)
    (moved : next ≠ .assigned) (data : spool'.data ⊆ insert jobid spool.data)
    (reqs : spool'.reqs ⊆ insert jobid spool.reqs) :
    Ahead spool' (advance memory jobid stage next) where
  positive := ahead.positive
  files other inFiles := by
    show other < memory.nextjob
    have own := ahead.clients _ member
    rcases Finset.mem_union.mp inFiles with inData | inReqs
    · rcases Finset.mem_insert.mp (data inData) with rfl | old
      · exact own
      · exact ahead.files other (Finset.mem_union_left _ old)
    · rcases Finset.mem_insert.mp (reqs inReqs) with rfl | old
      · exact own
      · exact ahead.files other (Finset.mem_union_right _ old)
  clients client inside := by
    show client.1 < memory.nextjob
    rcases List.mem_cons.mp inside with rfl | old
    · exact ahead.clients (jobid, stage) member
    · exact ahead.clients client (List.mem_of_mem_erase old)
  distinct :=
    List.nodup_cons.mpr ⟨ahead.others member,
      ahead.distinct.sublist (List.erase_sublist.map Prod.fst)⟩
  unspooled other inside inData := by
    rcases List.mem_cons.mp inside with equal | old
    · exact moved (Prod.mk.inj equal).2.symm
    · rcases Finset.mem_insert.mp (data inData) with rfl | oldData
      · exact ahead.others member (List.mem_map_of_mem old)
      · exact ahead.unspooled other (List.mem_of_mem_erase old) oldData

theorem succJobno_of_lt {nextjob : Int} (positive : 0 < nextjob)
    (bounded : nextjob < INT32_MAX) : succJobno nextjob = nextjob + 1 := by
  have fits : toInt32 (nextjob + 1) = nextjob + 1 := by
    simp only [INT32_MAX] at bounded
    exact Int.bmod_eq_of_le (by omega) (by omega)
  simp only [succJobno, fits]
  omega

/-- A running daemon is ahead of its files, and nothing has clashed so far. -/
structure Sound (daemon : Daemon) : Prop where
  ahead : ∀ memory, daemon.memory = some memory → Ahead daemon.spool memory
  noClash : NoClash daemon

theorem Sound.of_running {daemon : Daemon} {memory : Memory}
    (running : daemon.memory = some memory) (ahead : Ahead daemon.spool memory)
    (noClash : NoClash daemon) : Sound daemon where
  ahead memory' equal := by
    rw [running] at equal
    exact Option.some.inj equal ▸ ahead
  noClash := noClash

theorem Ahead.getNewjobno {spool : Spool} {memory : Memory} (ahead : Ahead spool memory)
    (bounded : memory.nextjob < INT32_MAX) :
    Ahead spool { memory with
      nextjob := succJobno memory.nextjob
      clients := (memory.nextjob, .assigned) :: memory.clients } := by
  have succ := succJobno_of_lt ahead.positive bounded
  constructor
  case positive =>
    have := ahead.positive
    simp only [succ]
    omega
  case files =>
    intro jobid member
    have := ahead.files jobid member
    simp only [succ]
    omega
  case clients =>
    intro client member
    simp only [succ]
    rcases List.mem_cons.mp member with rfl | old
    · exact Int.lt_succ _
    · have := ahead.clients client old
      omega
  case distinct =>
    apply List.nodup_cons.mpr
    constructor
    · intro member
      rcases List.mem_map.mp member with ⟨client, inside, equal⟩
      have := ahead.clients client inside
      omega
    · exact ahead.distinct
  case unspooled =>
    intro jobid member inData
    rcases List.mem_cons.mp member with equal | old
    · obtain rfl : jobid = memory.nextjob := (Prod.mk.inj equal).1
      exact lt_irrefl _ (ahead.files _ (Finset.mem_union_left _ inData))
    · exact ahead.unspooled jobid old inData

theorem Sound.clientStep {daemon next : Daemon} {memory : Memory} {action : Action}
    (sound : Sound daemon) (running : daemon.memory = some memory)
    (fresh : CounterIsFresh daemon action)
    (stepped : clientStep daemon memory action = some next) : Sound next := by
  have ahead := sound.ahead memory running
  cases action with
  | getNewjobno =>
      obtain rfl := Option.some.inj stepped
      refine .of_running rfl (ahead.getNewjobno (fresh memory running)) ?_
      refine ⟨fun assignment member => ?_, sound.noClash.2⟩
      rcases List.mem_cons.mp member with rfl | old
      · exact ⟨ahead.positive, fun inside => lt_irrefl _ (ahead.files _ inside)⟩
      · exact sound.noClash.1 assignment old
  | creatData jobid =>
      rcases Option.ite_none_right_eq_some.mp stepped with ⟨member, equal⟩
      obtain rfl := Option.some.inj equal
      refine .of_running rfl (ahead.advance member (by simp) (Finset.Subset.refl _)
        (Finset.subset_insert _ _)) ?_
      simpa [NoClash, ahead.unspooled jobid member] using sound.noClash
  | creatReq jobid =>
      rcases Option.ite_none_right_eq_some.mp stepped with ⟨member, equal⟩
      obtain rfl := Option.some.inj equal
      exact .of_running rfl
        (ahead.advance member (by simp) (Finset.subset_insert _ _) (Finset.Subset.refl _))
        sound.noClash
  | writeReq jobid =>
      rcases Option.ite_none_right_eq_some.mp stepped with ⟨member, equal⟩
      obtain rfl := Option.some.inj equal
      exact .of_running rfl
        (ahead.advance member (by simp) (Finset.subset_insert _ _)
          (Finset.subset_insert _ _))
        sound.noClash
  | addJob jobid =>
      rcases Option.ite_none_right_eq_some.mp stepped with ⟨member, equal⟩
      obtain rfl := Option.some.inj equal
      exact .of_running rfl
        (ahead.shrink rfl (Finset.Subset.refl _) (Finset.Subset.refl _)
          List.erase_sublist)
        sound.noClash
  | clientFails jobid =>
      simp only [JobNumbers.clientStep] at stepped
      split at stepped
      · obtain rfl := Option.some.inj stepped
        exact .of_running rfl
          (ahead.shrink rfl (Finset.Subset.refl _) (Finset.Subset.refl _)
            List.erase_sublist)
          sound.noClash
      split at stepped
      · obtain rfl := Option.some.inj stepped
        exact .of_running rfl
          (ahead.shrink rfl (Finset.erase_subset _ _) (Finset.Subset.refl _)
            List.erase_sublist)
          sound.noClash
      rcases Option.ite_none_right_eq_some.mp stepped with ⟨_, equal⟩
      obtain rfl := Option.some.inj equal
      exact .of_running rfl
        (ahead.shrink rfl (Finset.erase_subset _ _) (Finset.erase_subset _ _)
          List.erase_sublist)
        sound.noClash
  | _ => cases stepped

/-- No step of the printer thread touches the counter or the clients. -/
theorem Sound.printerStep {daemon next : Daemon} {memory : Memory} {action : Action}
    (sound : Sound daemon) (running : daemon.memory = some memory)
    (stepped : printerStep daemon memory action = some next) : Sound next := by
  have ahead := sound.ahead memory running
  cases action with
  | pickUp =>
      simp only [JobNumbers.printerStep] at stepped
      split at stepped
      · obtain rfl := Option.some.inj stepped
        exact .of_running rfl
          (ahead.shrink rfl (Finset.Subset.refl _) (Finset.Subset.refl _) (.refl _))
          sound.noClash
      · cases stepped
  | updateJobno =>
      obtain rfl := Option.some.inj stepped
      exact .of_running running
        (ahead.shrink rfl (Finset.Subset.refl _) (Finset.Subset.refl _) (.refl _))
        sound.noClash
  | finishPrint =>
      rcases Option.map_eq_some_iff.mp stepped with ⟨jobid, _, rfl⟩
      exact .of_running rfl
        (ahead.shrink rfl (Finset.erase_subset _ _) (Finset.erase_subset _ _) (.refl _))
        sound.noClash
  | cancelJob =>
      rcases Option.map_eq_some_iff.mp stepped with ⟨jobid, _, rfl⟩
      exact .of_running rfl
        (ahead.shrink rfl (Finset.Subset.refl _) (Finset.Subset.refl _) (.refl _))
        sound.noClash
  | replaceJob =>
      rcases Option.map_eq_some_iff.mp stepped with ⟨jobid, _, rfl⟩
      exact .of_running rfl
        (ahead.shrink rfl (Finset.Subset.refl _) (Finset.Subset.refl _) (.refl _))
        sound.noClash
  | _ => cases stepped

theorem Sound.restart {daemon next : Daemon} {found : List Int} {removed : Finset Int}
    (sound : Sound daemon) (fresh : CounterIsFresh daemon (.restart found removed))
    (stepped : restart daemon found removed = some next) : Sound next := by
  rcases Option.ite_none_right_eq_some.mp stepped with ⟨_, equal⟩
  obtain rfl := Option.some.inj equal
  refine .of_running rfl ?_ sound.noClash
  constructor
  case positive => exact fresh.1
  case files =>
    intro jobid member
    apply fresh.2
    exact Finset.union_subset_union Finset.sdiff_subset Finset.sdiff_subset member
  case clients => simp
  case distinct => simp
  case unspooled => simp

theorem Sound.step {daemon next : Daemon} {action : Action} (sound : Sound daemon)
    (fresh : CounterIsFresh daemon action)
    (stepped : step daemon action = some next) : Sound next := by
  simp only [JobNumbers.step] at stepped
  split at stepped
  · exact sound.restart fresh stepped
  · obtain rfl := Option.some.inj stepped
    exact ⟨by simp, sound.noClash⟩
  · rcases Option.or_eq_some_iff.mp stepped with client | ⟨_, printer⟩
    · exact sound.clientStep ‹_› fresh client
    · exact sound.printerStep ‹_› printer
  · cases stepped

/-- A client thread takes a job through all its steps. -/
def submit (jobid : Int) : List Action :=
  [.getNewjobno, .creatData jobid, .creatReq jobid, .writeReq jobid, .addJob jobid]

/-- The daemon stops while the second job waits behind the first one. -/
def stopWithTwoJobs : List Action :=
  .restart [] ∅ :: submit 1 ++ [.pickUp, .updateJobno] ++ submit 2 ++
    [.stop, .restart [1, 2] ∅, .getNewjobno, .creatData 2]

end Apue.Printer.JobNumbers
