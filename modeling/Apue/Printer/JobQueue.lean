import Apue.Foundation.DoublyLinked
import Apue.Foundation.Run

/-! # The queue of print jobs

The client threads add jobs to the doubly linked list of `printer/printd.c`, and
the printer thread takes them from its head. Each function below runs with `joblock`
held, so that one call is one step. A function is undefined (`none`) where it follows
a pointer to a cell that is not allocated.
-/

namespace Apue.Printer.JobQueue

open Apue.Foundation

/-- `serial` is no field of the source: the jobs are numbered in the order in which
they are added. -/
structure Job (Request : Type) where
  next : Option Address
  prev : Option Address
  jobid : Int
  req : Request
  serial : Nat

structure Memory (Request : Type) where
  heap : Heap (Job Request)
  jobhead : Option Address
  jobtail : Option Address

variable {Request : Type}

/-- `add_job` with the job `jp` that `malloc` has returned. -/
def addJob (memory : Memory Request) (jp : Address) (reqp : Request) (jobid : Int) (serial : Nat) :
    Option (Memory Request) :=
  let heap := memory.heap.insert jp
    { next := none, prev := memory.jobtail, jobid, req := reqp, serial }
  match memory.jobtail with
  | none => some { heap, jobhead := some jp, jobtail := some jp }
  | some jobtail => do
      let heap ← Heap.modify heap jobtail fun job => { job with next := some jp }
      return { heap, jobhead := memory.jobhead, jobtail := some jp }

def replaceJob (memory : Memory Request) (jp : Address) : Option (Memory Request) := do
  let heap ← Heap.modify memory.heap jp fun job => { job with prev := none, next := memory.jobhead }
  match memory.jobhead with
  | none => return { heap, jobhead := some jp, jobtail := some jp }
  | some jobhead =>
      let heap ← Heap.modify heap jobhead fun job => { job with prev := some jp }
      return { heap, jobhead := some jp, jobtail := memory.jobtail }

def removeJob (memory : Memory Request) (target : Address) : Option (Memory Request) := do
  let job ← memory.heap.lookup target
  let memory ← match job.next with
    | some next => do
        let heap ← Heap.modify memory.heap next fun other => { other with prev := job.prev }
        pure { memory with heap := heap }
    | none => pure { memory with jobtail := job.prev }
  let job ← memory.heap.lookup target
  match job.prev with
  | some prev =>
      let heap ← Heap.modify memory.heap prev fun other => { other with next := job.next }
      return { memory with heap := heap }
  | none => return { memory with jobhead := job.next }

/-! ## The threads -/

/-- How a job leaves the printer thread for good. -/
inductive Ending
  | finished
  | cancelled
  deriving DecidableEq

/-- The memory and the job in the hands of the printer thread, and below them a
history: how many jobs were added, and those that were freed. -/
structure System (Request : Type) where
  memory : Memory Request
  jp : Option Address
  added : Nat
  ended : List (Nat × Ending)

def System.initial : System Request := ⟨⟨∅, none, none⟩, none, 0, []⟩

/-- A client thread adds a job; the printer thread picks one up, puts it back or
frees it. -/
inductive Action (Request : Type)
  | addJob (malloc : Address) (reqp : Request) (jobid : Int)
  | pickUp
  | replaceJob
  | free (ending : Ending)

def step (system : System Request) : Action Request → Option (System Request)
  | .addJob malloc reqp jobid => do
      let memory ← addJob system.memory malloc reqp jobid system.added
      return { system with memory := memory, added := system.added + 1 }
  | .pickUp => do
      let jp ← system.memory.jobhead
      let memory ← removeJob system.memory jp
      return { system with memory := memory, jp := some jp }
  | .replaceJob => do
      let jp ← system.jp
      let memory ← replaceJob system.memory jp
      return { system with memory := memory, jp := none }
  | .free ending => do
      let jp ← system.jp
      let job ← system.memory.heap.lookup jp
      return { system with
        memory := { system.memory with heap := system.memory.heap.erase jp }
        jp := none
        ended := system.ended ++ [(job.serial, ending)] }

/-- `malloc` returns an address that is not in use. The printer thread waits for a
job when it has none, and then has to get rid of it. -/
def Granted (system : System Request) : Action Request → Prop
  | .addJob malloc _ _ => malloc ∉ system.memory.heap
  | .pickUp => system.jp = none ∧ system.memory.jobhead ≠ none
  | .replaceJob => system.jp ≠ none
  | .free _ => system.jp ≠ none

instance (system : System Request) : ∀ action, Decidable (Granted system action)
  | .addJob malloc _ _ => inferInstanceAs (Decidable (malloc ∉ system.memory.heap))
  | .pickUp => inferInstanceAs (Decidable (system.jp = none ∧ system.memory.jobhead ≠ none))
  | .replaceJob => inferInstanceAs (Decidable (system.jp ≠ none))
  | .free _ => inferInstanceAs (Decidable (system.jp ≠ none))

/-- The jobs that the list has from `jobhead` on. -/
def System.queue (system : System Request) : Option (List Nat) := do
  let nodes ← system.memory.heap.visited Job.next system.memory.jobhead
  nodes.mapM fun jp => (system.memory.heap.lookup jp).map Job.serial

/-- The job in the hands of the printer thread. -/
def System.hand (system : System Request) : Option Nat := do
  let jp ← system.jp
  (system.memory.heap.lookup jp).map Job.serial

/-- Every job is in the list, with the printer thread or freed, and only once. They
are freed in the order in which they were added. -/
structure EachOnce (system : System Request) : Prop where
  placed : ∃ queue, system.queue = some queue ∧ ∀ serial < system.added,
    queue.count serial + system.hand.toList.count serial +
      (system.ended.map Prod.fst).count serial = 1
  inOrder : system.ended.map Prod.fst <+: List.range system.added

/-! ## What holds at all times -/

def jobLinks : Links (Job Request) Nat := ⟨Job.next, Job.prev, Job.serial⟩

/-- The jobs that are freed, the one in hand, and those in the list are all the jobs
in the order in which they were added. -/
structure Arranged (system : System Request) (hand : Option Nat) (entries : List (Address × Nat)) :
    Prop where
  chain : jobLinks.Chain system.memory.heap system.memory.jobhead system.memory.jobtail entries
  empty : system.jp = none → hand = none
  held : ∀ jp, system.jp = some jp → jp ∉ entries.map Prod.fst ∧
    ∃ job, system.memory.heap.lookup jp = some job ∧ hand = some job.serial
  order : system.ended.map Prod.fst ++ hand.toList ++ entries.map Prod.snd =
    List.range system.added

section Arranged

variable {system next : System Request} {hand : Option Nat} {entries : List (Address × Nat)}

theorem Arranged.initial : Arranged (.initial : System Request) none [] where
  chain := .empty _ _
  empty := fun _ => rfl
  held := fun _ isHeld => nomatch isHeld
  order := rfl

theorem Arranged.hand_eq (arranged : Arranged system hand entries) : system.hand = hand := by
  rw [System.hand]
  cases isHeld : system.jp with
  | none => exact (arranged.empty isHeld).symm
  | some jp =>
      rcases arranged.held jp isHeld with ⟨_, job, found, isHand⟩
      rw [isHand, Option.bind_eq_bind, Option.bind_some, found]
      rfl

/-- The cells of the list have the serial numbers of its entries. -/
theorem serials_of_chain {heap : Heap (Job Request)} {head tail : Option Address}
    (chain : jobLinks.Chain heap head tail entries) :
    (entries.map Prod.fst).mapM (fun jp => (heap.lookup jp).map Job.serial) =
      some (entries.map Prod.snd) := by
  have behind : ∀ after before, entries = before ++ after →
      (after.map Prod.fst).mapM (fun jp => (heap.lookup jp).map Job.serial) =
        some (after.map Prod.snd) := by
    intro after
    induction after with
    | nil => exact fun _ _ => rfl
    | cons entry after hypothesis =>
        intro before split
        rcases chain.cells before entry after split with ⟨job, fits⟩
        have rest := hypothesis (before ++ [entry]) (by
          rw [List.append_assoc, List.singleton_append]
          exact split)
        have serial : job.serial = entry.2 := fits.label
        rw [List.map_cons, List.mapM_cons, fits.found, rest, List.map_cons, ← serial]
        rfl
  exact behind entries [] rfl

theorem Arranged.queue_eq (arranged : Arranged system hand entries) :
    system.queue = some (entries.map Prod.snd) := by
  have visited := Heap.visited_eq_some_iff.mpr arranged.chain.path
  have sameNext : system.memory.heap.visited Job.next system.memory.jobhead =
      some (entries.map Prod.fst) := visited
  rw [System.queue, sameNext]
  exact serials_of_chain arranged.chain

theorem Arranged.eachOnce (arranged : Arranged system hand entries) : EachOnce system where
  placed := by
    refine ⟨_, arranged.queue_eq, fun serial isAdded => ?_⟩
    have once : (List.range system.added).count serial = 1 :=
      List.count_eq_one_of_mem List.nodup_range (List.mem_range.mpr isAdded)
    rw [← arranged.order, List.count_append, List.count_append] at once
    rw [arranged.hand_eq]
    omega
  inOrder := by
    rw [← arranged.order, List.append_assoc]
    exact List.prefix_append _ _

end Arranged

/-! ## One call -/

section Calls

variable {memory : Memory Request} {entries rest : List (Address × Nat)} {entry : Address × Nat}
  {jp : Address} {job : Job Request}

/-- The list of the jobs in a memory. -/
abbrev Memory.Queue (memory : Memory Request) (entries : List (Address × Nat)) : Prop :=
  jobLinks.Chain memory.heap memory.jobhead memory.jobtail entries

theorem addJob_spec (queue : memory.Queue entries) (fresh : jp ∉ memory.heap) (reqp : Request)
    (jobid : Int) (serial : Nat) :
    ∃ after, addJob memory jp reqp jobid serial = some after ∧
      after.Queue (entries ++ [(jp, serial)]) ∧
      ∀ address, address ≠ jp → address ∉ entries.map Prod.fst →
        after.heap.lookup address = memory.heap.lookup address := by
  have apart : ∀ address ∈ entries.map Prod.fst, address ≠ jp := by
    rintro address member rfl
    rcases queue.exists_cell member with ⟨job, found⟩
    rw [Finmap.lookup_eq_none.mpr fresh] at found
    cases found
  have isFresh : jp ∉ entries.map Prod.fst := fun member => apart jp member rfl
  rw [addJob]
  cases isTail : memory.jobtail with
  | none =>
      have isEmpty := queue.eq_nil_of_tail isTail
      subst isEmpty
      have noHead : memory.jobhead = none := queue.head_eq
      refine ⟨_, rfl, ?_, fun address different _ => Finmap.lookup_insert_of_ne _ different⟩
      have added : ∃ cell, (memory.heap.insert jp
          { next := none, prev := none, jobid, req := reqp, serial }).lookup jp = some cell ∧
          jobLinks.label cell = serial ∧ jobLinks.next cell = none ∧
          jobLinks.prev cell = memory.jobtail :=
        ⟨{ next := none, prev := none, jobid, req := reqp, serial }, Finmap.lookup_insert _, rfl, rfl,
          isTail.symm⟩
      have pushed := @Links.Chain.pushBack _ _ _ _ _ _ _ _ (jp, serial) queue isFresh added nofun
      rw [noHead] at pushed
      exact pushed
  | some jobtail =>
      have inside : jobtail ∈ entries.map Prod.fst :=
        mem_of_lastAddress (queue.tail_eq.symm.trans isTail)
      rcases queue.exists_cell inside with ⟨last, found⟩
      have stillFound : (memory.heap.insert jp
          { next := none, prev := some jobtail, jobid, req := reqp, serial }).lookup jobtail =
          some last :=
        (Finmap.lookup_insert_of_ne _ (apart jobtail inside)).trans found
      simp only [Heap.modify_eq _ stillFound, Option.bind_eq_bind, Option.bind_some]
      refine ⟨_, rfl, ?_, ?_⟩
      · have added : ∃ cell, ((memory.heap.insert jp
            { next := none, prev := some jobtail, jobid, req := reqp, serial }).insert jobtail
              { last with next := some jp }).lookup jp = some cell ∧
            jobLinks.label cell = serial ∧ jobLinks.next cell = none ∧
            jobLinks.prev cell = memory.jobtail :=
          ⟨{ next := none, prev := some jobtail, jobid, req := reqp, serial },
            (Finmap.lookup_insert_of_ne _ (apart jobtail inside).symm).trans
              (Finmap.lookup_insert _), rfl, rfl, isTail.symm⟩
        have pushed := @Links.Chain.pushBack _ _ _ _ _ _ _ _ (jp, serial) queue isFresh added (by
          intro address member job isJob
          apply Heap.exists_lookup_insert stillFound
            ((Finmap.lookup_insert_of_ne _ (apart address member)).trans isJob)
          · rintro rfl rfl
            rw [isTail, if_pos rfl]
            exact ⟨rfl, rfl, rfl⟩
          · intro same
            rw [isTail, if_neg fun equal => same (Option.some.inj equal).symm]
            exact ⟨rfl, rfl, rfl⟩)
        rw [queue.head_or isTail] at pushed
        exact pushed
      · intro address different outside
        have notLast : address ≠ jobtail := by
          rintro rfl
          exact outside inside
        exact (Finmap.lookup_insert_of_ne _ notLast).trans (Finmap.lookup_insert_of_ne _ different)

/-- The added job has its number and its request, and the other jobs keep theirs. -/
theorem addJob_cells {after : Memory Request} {reqp : Request} {jobid : Int} {serial : Nat}
    (added : addJob memory jp reqp jobid serial = some after) :
    (∃ job, after.heap.lookup jp = some job ∧ job.jobid = jobid ∧ job.req = reqp) ∧
      ∀ address job, address ≠ jp → memory.heap.lookup address = some job →
        ∃ other, after.heap.lookup address = some other ∧ other.jobid = job.jobid ∧
          other.req = job.req := by
  rw [addJob] at added
  cases isTail : memory.jobtail with
  | none =>
      rw [isTail] at added
      cases added
      refine ⟨⟨_, Finmap.lookup_insert _, rfl, rfl⟩, fun address job different found => ?_⟩
      exact ⟨job, (Finmap.lookup_insert_of_ne _ different).trans found, rfl, rfl⟩
  | some jobtail =>
      rw [isTail] at added
      rcases Option.bind_eq_some_iff.mp added with ⟨heap, modified, same⟩
      cases same
      rcases Option.map_eq_some_iff.mp modified with ⟨last, foundLast, rfl⟩
      dsimp only
      constructor
      · by_cases isLast : jp = jobtail
        · subst isLast
          rw [Finmap.lookup_insert] at foundLast
          cases foundLast
          exact ⟨_, Finmap.lookup_insert _, rfl, rfl⟩
        · exact ⟨_, (Finmap.lookup_insert_of_ne _ isLast).trans (Finmap.lookup_insert _), rfl, rfl⟩
      · intro address job different found
        have stillFound : (memory.heap.insert jp
            { next := none, prev := some jobtail, jobid, req := reqp, serial }).lookup address =
            some job := (Finmap.lookup_insert_of_ne _ different).trans found
        by_cases isLast : address = jobtail
        · subst isLast
          rw [stillFound] at foundLast
          cases foundLast
          exact ⟨_, Finmap.lookup_insert _, rfl, rfl⟩
        · exact ⟨job, (Finmap.lookup_insert_of_ne _ isLast).trans stillFound, rfl, rfl⟩

/-- The numbers and the requests of the jobs in the list, in order. -/
def Memory.Holds (memory : Memory Request) (jobs : List (Int × Request)) : Prop :=
  ∃ entries, memory.Queue entries ∧ List.Forall₂ (fun entry job => ∃ cell,
    memory.heap.lookup entry.1 = some cell ∧ cell.jobid = job.1 ∧ cell.req = job.2) entries jobs

theorem addJob_holds {jobs : List (Int × Request)} (holds : memory.Holds jobs)
    (fresh : jp ∉ memory.heap) (reqp : Request) (jobid : Int) (serial : Nat) :
    ∃ after, addJob memory jp reqp jobid serial = some after ∧
      after.Holds (jobs ++ [(jobid, reqp)]) := by
  rcases holds with ⟨entries, queue, cells⟩
  rcases addJob_spec queue fresh reqp jobid serial with ⟨after, added, longer, _⟩
  rcases addJob_cells added with ⟨new, kept⟩
  refine ⟨after, added, _, longer, ?_⟩
  have keeps : List.Forall₂ (fun (entry : Address × Nat) job => ∃ cell,
      after.heap.lookup entry.1 = some cell ∧ cell.jobid = job.1 ∧ cell.req = job.2) entries jobs := by
    apply cells.imp
    intro entry job found
    rcases found with ⟨cell, isCell, sameNumber, sameRequest⟩
    have different : entry.1 ≠ jp := by
      intro same
      rw [same, Finmap.lookup_eq_none.mpr fresh] at isCell
      cases isCell
    rcases kept entry.1 cell different isCell with ⟨other, isOther, number, request⟩
    exact ⟨other, isOther, number.trans sameNumber, request.trans sameRequest⟩
  exact List.rel_append keeps (.cons new .nil)

theorem replaceJob_spec (queue : memory.Queue entries) (outside : jp ∉ entries.map Prod.fst)
    (found : memory.heap.lookup jp = some job) :
    ∃ after, replaceJob memory jp = some after ∧ after.Queue ((jp, job.serial) :: entries) := by
  have apart : ∀ address ∈ entries.map Prod.fst, address ≠ jp := by
    rintro address member rfl
    exact outside member
  simp only [replaceJob, Heap.modify_eq _ found, Option.bind_eq_bind, Option.bind_some]
  cases isHead : memory.jobhead with
  | none =>
      have isEmpty := queue.eq_nil_of_head isHead
      subst isEmpty
      have noTail : memory.jobtail = none := queue.tail_eq
      refine ⟨_, rfl, ?_⟩
      have added : ∃ cell, (memory.heap.insert jp { job with prev := none, next := none }).lookup
          jp = some cell ∧ jobLinks.label cell = job.serial ∧
          jobLinks.next cell = memory.jobhead ∧ jobLinks.prev cell = none :=
        ⟨{ job with prev := none, next := none }, Finmap.lookup_insert _, rfl, isHead.symm, rfl⟩
      have pushed := @Links.Chain.pushFront _ _ _ _ _ _ _ _ (jp, job.serial) queue outside added
        nofun
      rw [noTail] at pushed
      exact pushed
  | some jobhead =>
      have inside : jobhead ∈ entries.map Prod.fst :=
        mem_of_firstAddress (queue.head_eq.symm.trans isHead)
      rcases queue.exists_cell inside with ⟨first, isFound⟩
      have stillFound : (memory.heap.insert jp
          { job with prev := none, next := some jobhead }).lookup jobhead = some first :=
        (Finmap.lookup_insert_of_ne _ (apart jobhead inside)).trans isFound
      simp only [Heap.modify_eq _ stillFound, Option.bind_some]
      refine ⟨_, rfl, ?_⟩
      have added : ∃ cell, ((memory.heap.insert jp
            { job with prev := none, next := some jobhead }).insert jobhead
              { first with prev := some jp }).lookup jp = some cell ∧
          jobLinks.label cell = job.serial ∧ jobLinks.next cell = memory.jobhead ∧
          jobLinks.prev cell = none :=
        ⟨{ job with prev := none, next := some jobhead },
          (Finmap.lookup_insert_of_ne _ (apart jobhead inside).symm).trans
            (Finmap.lookup_insert _), rfl, isHead.symm, rfl⟩
      have pushed := @Links.Chain.pushFront _ _ _ _ _ _ _ _ (jp, job.serial) queue outside added
        (by
          intro address member other isOther
          apply Heap.exists_lookup_insert stillFound
            ((Finmap.lookup_insert_of_ne _ (apart address member)).trans isOther)
          · rintro rfl rfl
            rw [isHead, if_pos rfl]
            exact ⟨rfl, rfl, rfl⟩
          · intro same
            rw [isHead, if_neg fun equal => same (Option.some.inj equal).symm]
            exact ⟨rfl, rfl, rfl⟩)
      rw [queue.tail_or isHead] at pushed
      exact pushed

/-- The first half of `remove_job`: the job behind the target, or the tail. -/
def relinkBehind (memory : Memory Request) (next prev : Option Address) : Option (Memory Request) :=
  match next with
  | some next => do
      let heap ← Heap.modify memory.heap next fun other => { other with prev := prev }
      return { memory with heap := heap }
  | none => some { memory with jobtail := prev }

/-- The second half: the job in front of the target, or the head. -/
def relinkInFront (memory : Memory Request) (next prev : Option Address) : Option (Memory Request) :=
  match prev with
  | some prev => do
      let heap ← Heap.modify memory.heap prev fun other => { other with next := next }
      return { memory with heap := heap }
  | none => some { memory with jobhead := next }

theorem removeJob_eq (memory : Memory Request) (target : Address) : removeJob memory target = (do
    let job ← memory.heap.lookup target
    let memory ← relinkBehind memory job.next job.prev
    let job ← memory.heap.lookup target
    relinkInFront memory job.next job.prev) := by
  rw [removeJob]
  congr 1
  funext job
  cases job.next with
  | none => rfl
  | some next => exact (bind_assoc (Heap.modify memory.heap next _) _ _).symm

theorem relinkBehind_spec {front back : List (Address × Nat)}
    (queue : memory.Queue (front ++ entry :: back)) :
    ∃ between : Memory Request,
      relinkBehind memory (firstAddress back) (lastAddress front) = some between ∧
      between.jobhead = memory.jobhead ∧
      between.jobtail = (lastAddress back).or (lastAddress front) ∧
      ∀ address, between.heap.lookup address = (memory.heap.lookup address).map fun job =>
        if firstAddress back = some address then { job with prev := lastAddress front } else job := by
  cases back with
  | nil =>
      refine ⟨_, rfl, rfl, rfl, fun address => ?_⟩
      cases memory.heap.lookup address with
      | none => rfl
      | some job => rfl
  | cons second back =>
      have whole : front ++ entry :: second :: back = (front ++ [entry]) ++ second :: back := by
        rw [List.append_assoc, List.singleton_append]
      rcases queue.cells _ _ _ whole with ⟨other, fits⟩
      have modified := Heap.modify_eq (fun other : Job Request =>
        { other with prev := lastAddress front }) fits.found
      rw [firstAddress_cons]
      let changed := memory.heap.insert second.1 { other with prev := lastAddress front }
      refine ⟨{ memory with heap := changed }, ?_, rfl, ?_, fun address => ?_⟩
      · simp only [relinkBehind, modified, Option.bind_eq_bind, Option.bind_some]
        rfl
      · dsimp only
        rw [queue.tail_eq, lastAddress_append, lastAddress_cons_cons]
      · rw [Heap.lookup_of_modify modified]
        simp only [Option.some.injEq]

theorem relinkInFront_spec {front back : List (Address × Nat)} {between : Memory Request}
    (queue : memory.Queue (front ++ entry :: back)) (sameHead : between.jobhead = memory.jobhead)
    (present : ∀ address ∈ front.map Prod.fst, ∃ job, between.heap.lookup address = some job) :
    ∃ after : Memory Request,
      relinkInFront between (firstAddress back) (lastAddress front) = some after ∧
      after.jobhead = (firstAddress front).or (firstAddress back) ∧
      after.jobtail = between.jobtail ∧
      ∀ address, after.heap.lookup address = (between.heap.lookup address).map fun job =>
        if lastAddress front = some address then { job with next := firstAddress back } else job := by
  rcases List.eq_nil_or_concat front with rfl | ⟨inside, last, rfl⟩
  · refine ⟨_, rfl, rfl, rfl, fun address => ?_⟩
    · cases between.heap.lookup address with
      | none => rfl
      | some job => rfl
  · rw [List.concat_eq_append] at queue present ⊢
    rcases present last.1 (List.mem_map_of_mem (List.mem_append_right _ List.mem_cons_self)) with
      ⟨other, found⟩
    have modified := Heap.modify_eq (fun other : Job Request =>
      { other with next := firstAddress back }) found
    rw [lastAddress_concat]
    let changed := between.heap.insert last.1 { other with next := firstAddress back }
    refine ⟨{ between with heap := changed }, ?_, ?_, rfl, fun address => ?_⟩
    · simp only [relinkInFront, modified, Option.bind_eq_bind, Option.bind_some]
      rfl
    · dsimp only
      rw [sameHead, queue.head_eq, firstAddress_append]
      cases inside with
      | nil => rfl
      | cons first inside => rfl
    · rw [Heap.lookup_of_modify modified]
      simp only [Option.some.injEq]

/-- The target is taken off the list, wherever it is. -/
theorem removeJob_spec {front back : List (Address × Nat)}
    (queue : memory.Queue (front ++ entry :: back)) :
    ∃ after job, removeJob memory entry.1 = some after ∧ after.Queue (front ++ back) ∧
      after.heap.lookup entry.1 = some job ∧ job.serial = entry.2 := by
  rcases queue.cells front entry back rfl with ⟨job, fits⟩
  have isNext : job.next = firstAddress back := fits.next
  have isPrev : job.prev = lastAddress front := fits.prev
  have distinct := queue.nodup
  rw [List.map_append, List.map_cons] at distinct
  have notBehind : firstAddress back ≠ some entry.1 := fun isFirst =>
    (List.nodup_cons.mp (List.nodup_append.mp distinct).2.1).1 (mem_of_firstAddress isFirst)
  have notInFront : lastAddress front ≠ some entry.1 := fun isLast =>
    (List.nodup_append.mp distinct).2.2 entry.1 (mem_of_lastAddress isLast) entry.1
      List.mem_cons_self rfl
  rcases relinkBehind_spec queue with ⟨between, isBetween, sameHead, isTail, cells⟩
  have stillFound : between.heap.lookup entry.1 = some job := by
    rw [cells, fits.found, Option.map_some, if_neg notBehind]
  have present : ∀ address ∈ front.map Prod.fst, ∃ job, between.heap.lookup address = some job := by
    intro address member
    have inside : address ∈ (front ++ entry :: back).map Prod.fst := by
      rw [List.map_append]
      exact List.mem_append_left _ member
    rcases queue.exists_cell inside with ⟨other, found⟩
    exact ⟨_, by rw [cells, found, Option.map_some]⟩
  rcases relinkInFront_spec queue sameHead present with ⟨after, isAfter, isHead, sameTail, cellsAfter⟩
  refine ⟨after, job, ?_, ?_, ?_, fits.label⟩
  · rw [removeJob_eq, fits.found]
    simp only [Option.bind_eq_bind, Option.bind_some, isNext, isPrev, isBetween, stillFound]
    exact isAfter
  · have removed := @Links.Chain.remove _ _ jobLinks memory.heap after.heap _ _ entry front back queue (by
      intro address member cell found
      refine ⟨_, by rw [cellsAfter, cells, found, Option.map_some, Option.map_some], ?_⟩
      split
      · split
        · exact ⟨rfl, rfl, rfl⟩
        · exact ⟨rfl, rfl, rfl⟩
      · split
        · exact ⟨rfl, rfl, rfl⟩
        · exact ⟨rfl, rfl, rfl⟩)
    rw [Memory.Queue, isHead, sameTail, isTail]
    exact removed
  · rw [cellsAfter, stillFound, Option.map_some, if_neg notInFront]

end Calls

/-! ## Runs -/

section Steps

variable {system : System Request} {hand : Option Nat} {entries : List (Address × Nat)}

theorem Arranged.addJob (arranged : Arranged system hand entries) {malloc : Address}
    (fresh : malloc ∉ system.memory.heap) (reqp : Request) (jobid : Int) :
    ∃ next, step system (.addJob malloc reqp jobid) = some next ∧
      Arranged next hand (entries ++ [(malloc, system.added)]) := by
  rcases addJob_spec arranged.chain fresh reqp jobid system.added with
    ⟨memory, isAdded, queue, others⟩
  refine ⟨{ system with memory := memory, added := system.added + 1 }, ?_, ?_⟩
  · rw [step, isAdded]
    rfl
  · refine { chain := queue, empty := arranged.empty, held := ?_, order := ?_ }
    · intro jp isHeld
      rcases arranged.held jp isHeld with ⟨outside, job, found, isHand⟩
      have different : jp ≠ malloc := by
        rintro rfl
        rw [Finmap.lookup_eq_none.mpr fresh] at found
        cases found
      constructor
      · rw [List.map_append, List.map_singleton, List.mem_append, List.mem_singleton]
        exact not_or.mpr ⟨outside, different⟩
      · exact ⟨job, (others jp different outside).trans found, isHand⟩
    · rw [List.map_append, List.map_singleton, ← List.append_assoc, arranged.order,
        List.range_succ]

theorem Arranged.pickUp (arranged : Arranged system hand entries) (isFree : system.jp = none)
    (waiting : system.memory.jobhead ≠ none) :
    ∃ next hand' rest, step system .pickUp = some next ∧ Arranged next hand' rest := by
  cases entries with
  | nil => exact absurd arranged.chain.head_eq waiting
  | cons entry rest =>
      rcases @removeJob_spec _ _ _ [] rest arranged.chain with
        ⟨memory, job, isRemoved, queue, found, serial⟩
      refine ⟨{ system with memory := memory, jp := some entry.1 }, some entry.2, rest, ?_, ?_⟩
      · rw [step, arranged.chain.head_eq]
        simp only [firstAddress_cons, Option.bind_eq_bind, Option.bind_some, isRemoved]
        rfl
      · refine { chain := queue, empty := fun isNone => (nomatch isNone), held := ?_, order := ?_ }
        · intro jp isHeld
          cases isHeld
          exact ⟨(List.nodup_cons.mp arranged.chain.nodup).1, job, found, congrArg some serial.symm⟩
        · rw [← arranged.order, arranged.empty isFree]
          simp

theorem Arranged.replaceJob (arranged : Arranged system hand entries) {jp : Address}
    (isHeld : system.jp = some jp) :
    ∃ next entries', step system .replaceJob = some next ∧ Arranged next none entries' := by
  rcases arranged.held jp isHeld with ⟨outside, job, found, isHand⟩
  rcases replaceJob_spec arranged.chain outside found with ⟨memory, isReplaced, queue⟩
  refine ⟨{ system with memory := memory, jp := none }, (jp, job.serial) :: entries, ?_, ?_⟩
  · rw [step, isHeld]
    simp only [Option.bind_eq_bind, Option.bind_some, isReplaced]
    rfl
  · refine { chain := queue, empty := fun _ => rfl, held := fun _ isNone => (nomatch isNone),
             order := ?_ }
    rw [← arranged.order, isHand]
    simp

theorem Arranged.free (arranged : Arranged system hand entries) {jp : Address}
    (isHeld : system.jp = some jp) (ending : Ending) :
    ∃ next, step system (.free ending) = some next ∧ Arranged next none entries := by
  rcases arranged.held jp isHeld with ⟨outside, job, found, isHand⟩
  have queue : jobLinks.Chain (system.memory.heap.erase jp) system.memory.jobhead
      system.memory.jobtail entries := by
    apply arranged.chain.congr
    intro address member
    apply Finmap.lookup_erase_ne
    rintro rfl
    exact outside member
  refine ⟨{ memory := { system.memory with heap := system.memory.heap.erase jp }
            jp := none
            added := system.added
            ended := system.ended ++ [(job.serial, ending)] }, ?_, ?_⟩
  · rw [step, isHeld]
    simp only [Option.bind_eq_bind, Option.bind_some, found]
    rfl
  · refine { chain := queue, empty := fun _ => rfl, held := fun _ isNone => (nomatch isNone),
             order := ?_ }
    rw [← arranged.order, isHand]
    simp

theorem Arranged.next {action : Action Request} (arranged : Arranged system hand entries)
    (granted : Granted system action) :
    ∃ next, step system action = some next ∧ ∃ hand entries, Arranged next hand entries := by
  cases action with
  | addJob malloc reqp jobid =>
      rcases arranged.addJob granted reqp jobid with ⟨next, stepped, still⟩
      exact ⟨next, stepped, _, _, still⟩
  | pickUp =>
      rcases arranged.pickUp granted.1 granted.2 with ⟨next, hand, rest, stepped, still⟩
      exact ⟨next, stepped, hand, rest, still⟩
  | replaceJob =>
      rcases Option.ne_none_iff_exists'.mp granted with ⟨jp, isHeld⟩
      rcases arranged.replaceJob isHeld with ⟨next, entries, stepped, still⟩
      exact ⟨next, stepped, none, entries, still⟩
  | free ending =>
      rcases Option.ne_none_iff_exists'.mp granted with ⟨jp, isHeld⟩
      rcases arranged.free isHeld ending with ⟨next, stepped, still⟩
      exact ⟨next, stepped, none, entries, still⟩

end Steps

/-- No pointer goes astray, no job is lost or doubled, and none overtakes another. -/
theorem jobs_placedOnce {actions : List (Action Request)}
    (granted : EveryStep step Granted .initial actions) :
    Completes step (.initial : System Request) actions ∧
      EveryState step EachOnce .initial actions := by
  constructor
  · have progress : ∀ (system : System Request) action,
        (∃ hand entries, Arranged system hand entries) → Granted system action →
          ∃ next, step system action = some next ∧ ∃ hand entries, Arranged next hand entries := by
      rintro system action ⟨hand, entries, arranged⟩ isGranted
      exact arranged.next isGranted
    exact completes_of_invariant progress ⟨none, [], .initial⟩ granted
  · have always : EveryState step (fun system => ∃ hand entries, Arranged system hand entries)
        (.initial : System Request) actions := by
      apply everyState_of_invariant _ ⟨none, [], .initial⟩ granted
      rintro system action next ⟨hand, entries, arranged⟩ isGranted stepped
      rcases arranged.next isGranted with ⟨other, isOther, still⟩
      rw [stepped] at isOther
      cases isOther
      exact still
    apply always.mono
    rintro system ⟨hand, entries, arranged⟩
    exact arranged.eachOnce

/-- The second job is deferred once. -/
theorem jobs_placedOnce_deferred :
    EveryState step EachOnce (.initial : System Unit)
      [.addJob 7 () 1, .pickUp, .addJob 9 () 2, .replaceJob, .pickUp, .free .cancelled] := by
  apply And.right
  apply jobs_placedOnce
  decide

end Apue.Printer.JobQueue
