import Apue.Printer.JobQueue

/-! # The list of the jobs

`add_job`, `replace_job` and `remove_job` of `printer/printd.c` keep a doubly linked list,
whatever the order in which they are called. A job that was removed keeps the links that it
had, and may come back.
-/

namespace Apue.Printer.JobList

open Apue.Foundation
open JobQueue (Job Memory jobLinks addJob replaceJob removeJob)

variable {Request : Type}

/-- The calls of the three functions. A job that is not on the list can be freed, so that
`malloc` can return its address again. -/
inductive Operation (Request : Type)
  | addJob (malloc : Address) (reqp : Request) (jobid : Int)
  | replaceJob (jp : Address)
  | removeJob (target : Address)
  | free (jp : Address)

def operate (memory : Memory Request) : Operation Request → Option (Memory Request)
  | .addJob malloc reqp jobid => addJob memory malloc reqp jobid 0
  | .replaceJob jp => replaceJob memory jp
  | .removeJob target => removeJob memory target
  | .free jp => some { memory with heap := memory.heap.erase jp }

/-- The jobs from `jobhead` on. -/
def listed (memory : Memory Request) : Option (List Address) :=
  memory.heap.visited Job.next memory.jobhead

/-- A new job has a new address, a removed job is on the list, and one that is put back or
freed is there and not on the list. -/
def Granted (memory : Memory Request) : Operation Request → Prop
  | .addJob malloc _ _ => malloc ∉ memory.heap
  | .replaceJob jp => jp ∈ memory.heap ∧ ∀ jobs ∈ listed memory, jp ∉ jobs
  | .removeJob target => ∃ jobs ∈ listed memory, target ∈ jobs
  | .free jp => ∀ jobs ∈ listed memory, jp ∉ jobs

instance (memory : Memory Request) : ∀ operation, Decidable (Granted memory operation)
  | .addJob malloc _ _ => inferInstanceAs (Decidable (malloc ∉ memory.heap))
  | .replaceJob jp =>
      inferInstanceAs (Decidable (jp ∈ memory.heap ∧ ∀ jobs ∈ listed memory, jp ∉ jobs))
  | .removeJob target => inferInstanceAs (Decidable (∃ jobs ∈ listed memory, target ∈ jobs))
  | .free jp => inferInstanceAs (Decidable (∀ jobs ∈ listed memory, jp ∉ jobs))

/-- What an operation does to the sequence of the jobs. -/
def effect (jobs : List Address) : Operation Request → List Address
  | .addJob malloc _ _ => jobs ++ [malloc]
  | .replaceJob jp => jp :: jobs
  | .removeJob target => jobs.erase target
  | .free _ => jobs

/-- The links lead through the jobs in both directions, each is there once, and the list is
empty where both ends are null. -/
structure Represents (memory : Memory Request) (jobs : List Address) : Prop where
  forward : memory.heap.visited Job.next memory.jobhead = some jobs
  backward : memory.heap.visited Job.prev memory.jobtail = some jobs.reverse
  nodup : jobs.Nodup
  empty : jobs = [] ↔ memory.jobhead = none ∧ memory.jobtail = none

/-- The list as it is in memory, with the serial numbers left out. -/
def Linked (memory : Memory Request) (jobs : List Address) : Prop :=
  ∃ entries, memory.Queue entries ∧ entries.map Prod.fst = jobs

section Linked

variable {memory : Memory Request} {jobs : List Address}

theorem Linked.initial : Linked (⟨∅, none, none⟩ : Memory Request) [] := ⟨[], .empty _ _, rfl⟩

theorem Linked.listed_eq (linked : Linked memory jobs) : listed memory = some jobs := by
  rcases linked with ⟨entries, queue, rfl⟩
  exact Heap.visited_eq_some_iff.mpr queue.path

theorem Linked.represents (linked : Linked memory jobs) : Represents memory jobs := by
  rcases linked with ⟨entries, queue, rfl⟩
  refine ⟨Heap.visited_eq_some_iff.mpr queue.path, Heap.visited_eq_some_iff.mpr queue.pathBack,
    queue.nodup, ?_⟩
  rw [queue.head_eq, queue.tail_eq]
  cases entries with
  | nil => exact ⟨fun _ => ⟨rfl, rfl⟩, fun _ => rfl⟩
  | cons entry entries => exact ⟨nofun, fun ends => nomatch ends.1⟩

theorem Linked.step {operation : Operation Request} (linked : Linked memory jobs)
    (granted : Granted memory operation) :
    ∃ next, operate memory operation = some next ∧ Linked next (effect jobs operation) := by
  have isListed := linked.listed_eq
  rcases linked with ⟨entries, queue, rfl⟩
  cases operation with
  | addJob malloc reqp jobid =>
      rcases JobQueue.addJob_spec queue granted reqp jobid 0 with ⟨next, added, longer, _⟩
      refine ⟨next, added, _, longer, ?_⟩
      rw [List.map_append, effect]
      rfl
  | replaceJob jp =>
      rcases Option.isSome_iff_exists.mp (Finmap.lookup_isSome.mpr granted.1) with ⟨job, found⟩
      rcases JobQueue.replaceJob_spec queue (granted.2 _ isListed) found with ⟨next, replaced, longer⟩
      exact ⟨next, replaced, _, longer, rfl⟩
  | removeJob target =>
      rcases granted with ⟨jobs, sameJobs, member⟩
      rw [Option.mem_def, isListed, Option.some.injEq] at sameJobs
      subst sameJobs
      rcases List.mem_map.mp member with ⟨entry, inside, rfl⟩
      rcases List.append_of_mem inside with ⟨front, back, rfl⟩
      rcases JobQueue.removeJob_spec queue with ⟨next, _, removed, shorter, _⟩
      have distinct := queue.nodup
      rw [List.map_append, List.map_cons] at distinct
      refine ⟨next, removed, _, shorter, ?_⟩
      have notInFront : entry.1 ∉ front.map Prod.fst := fun inFront =>
        (List.nodup_append.mp distinct).2.2 entry.1 inFront entry.1 List.mem_cons_self rfl
      rw [effect, List.map_append, List.map_append, List.map_cons,
        List.erase_append_right _ notInFront, List.erase_cons_head]
  | free jp =>
      refine ⟨_, rfl, entries, ?_, rfl⟩
      apply Links.Chain.congr queue
      intro address member
      apply Finmap.lookup_erase_ne
      rintro rfl
      exact granted _ isListed member

end Linked

/-- After any sequence of operations the links represent the jobs in their order: added jobs are
at the end, those that were put back in front, and those that were removed are gone. -/
theorem operations_represent {operations : List (Operation Request)}
    (granted : EveryStep operate Granted ⟨∅, none, none⟩ operations) :
    ∃ memory, operations.foldlM operate ⟨∅, none, none⟩ = some memory ∧
      Represents memory (operations.foldl effect []) := by
  have progress : ∀ (memory : Memory Request) jobs operation, Linked memory jobs →
      Granted memory operation →
        ∃ next, operate memory operation = some next ∧ Linked next (effect jobs operation) :=
    fun _ _ _ linked isGranted => linked.step isGranted
  rcases exists_run_of_simulation progress Linked.initial granted with ⟨memory, ran, linked⟩
  exact ⟨memory, ran, linked.represents⟩

/-- A job in the middle is removed and put back, then the last one is removed. -/
theorem operations_represent_middle :
    ∃ memory, [.addJob 7 () 1, .addJob 9 () 2, .addJob 5 () 3, .removeJob 9, .replaceJob 9,
        .removeJob 5].foldlM operate (⟨∅, none, none⟩ : Memory Unit) = some memory ∧
      Represents memory [9, 7] := by
  apply operations_represent
  decide

end Apue.Printer.JobList
