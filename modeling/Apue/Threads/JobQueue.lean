import Apue.Foundation.DoublyLinked
import Apue.Foundation.Run

/-! # A queue with a reader-writer lock

The queue of jobs in `threads/rwlock.c`. `job_insert`, `job_append` and `job_remove` hold
the write lock, so that one call is one step. A function is undefined (`none`) where it
follows a pointer to a cell that is not allocated.
-/

namespace Apue.Threads.JobQueue

open Apue.Foundation

structure Job (ThreadId : Type) where
  j_next : Option Address
  j_prev : Option Address
  j_id : ThreadId
  deriving DecidableEq

structure Queue (ThreadId : Type) where
  heap : Heap (Job ThreadId)
  q_head : Option Address
  q_tail : Option Address

variable {ThreadId : Type}

def queueInit (heap : Heap (Job ThreadId)) : Queue ThreadId := ⟨heap, none, none⟩

def jobInsert (qp : Queue ThreadId) (jp : Address) : Option (Queue ThreadId) := do
  let heap ← qp.heap.modify jp fun job => { job with j_next := qp.q_head, j_prev := none }
  match qp.q_head with
  | some head =>
      let heap ← Heap.modify heap head fun job => { job with j_prev := some jp }
      return { qp with heap := heap, q_head := some jp }
  | none => return { heap := heap, q_head := some jp, q_tail := some jp }

def jobAppend (qp : Queue ThreadId) (jp : Address) : Option (Queue ThreadId) := do
  let heap ← qp.heap.modify jp fun job => { job with j_next := none, j_prev := qp.q_tail }
  match qp.q_tail with
  | some tail =>
      let heap ← Heap.modify heap tail fun job => { job with j_next := some jp }
      return { qp with heap := heap, q_tail := some jp }
  | none => return { heap := heap, q_head := some jp, q_tail := some jp }

def jobRemove (qp : Queue ThreadId) (jp : Address) : Option (Queue ThreadId) := do
  let job ← qp.heap.lookup jp
  if some jp = qp.q_head then
    if qp.q_tail = some jp then
      return { qp with q_head := job.j_next, q_tail := none }
    else
      let next ← job.j_next
      let heap ← qp.heap.modify next fun other => { other with j_prev := job.j_prev }
      return { qp with heap := heap, q_head := job.j_next }
  else if some jp = qp.q_tail then
    let prev ← job.j_prev
    let heap ← qp.heap.modify prev fun other => { other with j_next := job.j_next }
    return { qp with heap := heap, q_tail := job.j_prev }
  else
    let prev ← job.j_prev
    let heap ← qp.heap.modify prev fun other => { other with j_next := job.j_next }
    let job ← heap.lookup jp
    let next ← job.j_next
    let heap ← Heap.modify heap next fun other => { other with j_prev := job.j_prev }
    return { qp with heap := heap }

section Find

variable [DecidableEq ThreadId]

/-- The loop of `job_find`, with a bound on its rounds. -/
def findFrom (heap : Heap (Job ThreadId)) (id : ThreadId) :
    Nat → Option Address → Option (Option Address)
  | _, none => some none
  | 0, some _ => none
  | rounds + 1, some jp => do
      let job ← heap.lookup jp
      if job.j_id = id then
        return some jp
      findFrom heap id rounds job.j_next

/-- `rdlock` is what `pthread_rwlock_rdlock` returns. -/
def jobFind (qp : Queue ThreadId) (rdlock : Int) (id : ThreadId) : Option (Option Address) :=
  if rdlock ≠ 0 then some none
  else findFrom qp.heap id qp.heap.keys.card qp.q_head

end Find

/-! ## Sequences of calls -/

/-- Calls of the three functions. In between the cells of jobs that are not on the queue may
be allocated, freed and written. -/
inductive Operation (ThreadId : Type)
  | jobInsert (jp : Address)
  | jobAppend (jp : Address)
  | jobRemove (jp : Address)
  | elsewhere (heap : Heap (Job ThreadId))

def operate (qp : Queue ThreadId) : Operation ThreadId → Option (Queue ThreadId)
  | .jobInsert jp => jobInsert qp jp
  | .jobAppend jp => jobAppend qp jp
  | .jobRemove jp => jobRemove qp jp
  | .elsewhere heap => some { qp with heap := heap }

/-- The jobs from `q_head` on. -/
def queued (qp : Queue ThreadId) : Option (List Address) := qp.heap.visited Job.j_next qp.q_head

/-- Jobs are put on the queue that are not on it, and taken off that are. -/
def Granted (qp : Queue ThreadId) : Operation ThreadId → Prop
  | .jobInsert jp | .jobAppend jp => jp ∈ qp.heap ∧ ∀ jobs ∈ queued qp, jp ∉ jobs
  | .jobRemove jp => ∃ jobs ∈ queued qp, jp ∈ jobs
  | .elsewhere heap => ∀ jobs ∈ queued qp, ∀ jp ∈ jobs, heap.lookup jp = qp.heap.lookup jp

instance [DecidableEq ThreadId] (qp : Queue ThreadId) : ∀ operation, Decidable (Granted qp operation)
  | .jobInsert jp | .jobAppend jp =>
      inferInstanceAs (Decidable (jp ∈ qp.heap ∧ ∀ jobs ∈ queued qp, jp ∉ jobs))
  | .jobRemove jp => inferInstanceAs (Decidable (∃ jobs ∈ queued qp, jp ∈ jobs))
  | .elsewhere heap =>
      inferInstanceAs (Decidable (∀ jobs ∈ queued qp, ∀ jp ∈ jobs, heap.lookup jp = qp.heap.lookup jp))

/-- What an operation does to the sequence of the jobs. -/
def effect (jobs : List Address) : Operation ThreadId → List Address
  | .jobInsert jp => jp :: jobs
  | .jobAppend jp => jobs ++ [jp]
  | .jobRemove jp => jobs.erase jp
  | .elsewhere _ => jobs

/-- The pointers lead through the jobs in both directions, and each is there once. -/
structure Represents (qp : Queue ThreadId) (jobs : List Address) : Prop where
  forward : qp.heap.visited Job.j_next qp.q_head = some jobs
  backward : qp.heap.visited Job.j_prev qp.q_tail = some jobs.reverse
  nodup : jobs.Nodup
  head : qp.q_head = jobs.head?
  tail : qp.q_tail = jobs.getLast?

/-- The search tells the first of the jobs with an identifier, if it gets the lock. -/
def FindsFirst [DecidableEq ThreadId] (qp : Queue ThreadId) (jobs : List Address) : Prop :=
  ∀ id rdlock, jobFind qp rdlock id = if rdlock = 0 then
    some (jobs.find? fun jp => (qp.heap.lookup jp).map Job.j_id = some id) else some none

/-! ## One call -/

def jobLinks : Links (Job ThreadId) ThreadId := ⟨Job.j_next, Job.j_prev, Job.j_id⟩

/-- The queue as it is in memory. -/
abbrev Queue.Holds (qp : Queue ThreadId) (entries : List (Address × ThreadId)) : Prop :=
  jobLinks.Chain qp.heap qp.q_head qp.q_tail entries

section Calls

variable {qp : Queue ThreadId} {entries front back : List (Address × ThreadId)} {jp : Address}
  {job : Job ThreadId} {entry : Address × ThreadId}

theorem jobInsert_spec (holds : qp.Holds entries) (outside : jp ∉ entries.map Prod.fst)
    (found : qp.heap.lookup jp = some job) :
    ∃ after, jobInsert qp jp = some after ∧ after.Holds ((jp, job.j_id) :: entries) := by
  rw [jobInsert, Heap.modify_eq _ found, Option.bind_eq_bind, Option.bind_some]
  cases isHead : qp.q_head with
  | none =>
      have isEmpty := holds.eq_nil_of_head isHead
      subst isEmpty
      have noTail : qp.q_tail = none := holds.tail_eq
      refine ⟨_, rfl, ?_⟩
      have pushed : jobLinks.Chain (qp.heap.insert jp { job with j_next := none, j_prev := none })
          (some jp) (qp.q_tail.or (some jp)) [(jp, job.j_id)] := by
        apply @Links.Chain.pushFront _ _ _ _ _ _ _ _ (jp, job.j_id) holds outside
        · exact ⟨_, Finmap.lookup_insert _, rfl, isHead.symm, rfl⟩
        · exact fun _ member => by cases member
      rw [noTail] at pushed
      exact pushed
  | some head =>
      have inside : head ∈ entries.map Prod.fst := mem_of_firstAddress (holds.head_eq.symm.trans isHead)
      have different : head ≠ jp := fun same => outside (same ▸ inside)
      rcases holds.exists_cell inside with ⟨first, isFirst⟩
      have stillFirst : (qp.heap.insert jp { job with j_next := some head, j_prev := none }).lookup head =
          some first := (Finmap.lookup_insert_of_ne _ different).trans isFirst
      simp only [Heap.modify_eq _ stillFirst, Option.bind_some]
      refine ⟨_, rfl, ?_⟩
      have pushed : jobLinks.Chain ((qp.heap.insert jp { job with j_next := some head, j_prev := none }).insert
          head { first with j_prev := some jp })
          (some jp) (qp.q_tail.or (some jp)) ((jp, job.j_id) :: entries) := by
        apply @Links.Chain.pushFront _ _ _ _ _ _ _ _ (jp, job.j_id) holds outside
        · refine ⟨{ job with j_next := some head, j_prev := none }, ?_, rfl, isHead.symm, rfl⟩
          exact (Finmap.lookup_insert_of_ne _ different.symm).trans (Finmap.lookup_insert _)
        · intro address member cell isCell
          have other : address ≠ jp := fun same => outside (same ▸ member)
          apply Heap.exists_lookup_insert stillFirst ((Finmap.lookup_insert_of_ne _ other).trans isCell)
          · rintro rfl rfl
            rw [isHead, if_pos rfl]
            exact ⟨rfl, rfl, rfl⟩
          · intro same
            rw [isHead, if_neg fun equal => same (Option.some.inj equal).symm]
            exact ⟨rfl, rfl, rfl⟩
      rw [holds.tail_or isHead] at pushed
      exact pushed

theorem jobAppend_spec (holds : qp.Holds entries) (outside : jp ∉ entries.map Prod.fst)
    (found : qp.heap.lookup jp = some job) :
    ∃ after, jobAppend qp jp = some after ∧ after.Holds (entries ++ [(jp, job.j_id)]) := by
  rw [jobAppend, Heap.modify_eq _ found, Option.bind_eq_bind, Option.bind_some]
  cases isTail : qp.q_tail with
  | none =>
      have isEmpty := holds.eq_nil_of_tail isTail
      subst isEmpty
      have noHead : qp.q_head = none := holds.head_eq
      refine ⟨_, rfl, ?_⟩
      have pushed : jobLinks.Chain (qp.heap.insert jp { job with j_next := none, j_prev := none })
          (qp.q_head.or (some jp)) (some jp) [(jp, job.j_id)] := by
        apply @Links.Chain.pushBack _ _ _ _ _ _ _ _ (jp, job.j_id) holds outside
        · exact ⟨_, Finmap.lookup_insert _, rfl, rfl, isTail.symm⟩
        · exact fun _ member => by cases member
      rw [noHead] at pushed
      exact pushed
  | some tail =>
      have inside : tail ∈ entries.map Prod.fst := mem_of_lastAddress (holds.tail_eq.symm.trans isTail)
      have different : tail ≠ jp := fun same => outside (same ▸ inside)
      rcases holds.exists_cell inside with ⟨last, isLast⟩
      have stillLast : (qp.heap.insert jp { job with j_next := none, j_prev := some tail }).lookup tail =
          some last := (Finmap.lookup_insert_of_ne _ different).trans isLast
      simp only [Heap.modify_eq _ stillLast, Option.bind_some]
      refine ⟨_, rfl, ?_⟩
      have pushed : jobLinks.Chain ((qp.heap.insert jp { job with j_next := none, j_prev := some tail }).insert
          tail { last with j_next := some jp })
          (qp.q_head.or (some jp)) (some jp) (entries ++ [(jp, job.j_id)]) := by
        apply @Links.Chain.pushBack _ _ _ _ _ _ _ _ (jp, job.j_id) holds outside
        · refine ⟨{ job with j_next := none, j_prev := some tail }, ?_, rfl, rfl, isTail.symm⟩
          exact (Finmap.lookup_insert_of_ne _ different.symm).trans (Finmap.lookup_insert _)
        · intro address member cell isCell
          have other : address ≠ jp := fun same => outside (same ▸ member)
          apply Heap.exists_lookup_insert stillLast ((Finmap.lookup_insert_of_ne _ other).trans isCell)
          · rintro rfl rfl
            rw [isTail, if_pos rfl]
            exact ⟨rfl, rfl, rfl⟩
          · intro same
            rw [isTail, if_neg fun equal => same (Option.some.inj equal).symm]
            exact ⟨rfl, rfl, rfl⟩
      rw [holds.head_or isTail] at pushed
      exact pushed

/-- The first job is not one behind it. -/
theorem Queue.Holds.head_ne (holds : qp.Holds (front ++ entry :: back)) (more : front ≠ []) :
    qp.q_head ≠ some entry.1 := by
  intro isHead
  have distinct := holds.nodup
  rw [List.map_append, List.map_cons] at distinct
  rw [holds.head_eq, firstAddress_append] at isHead
  cases front with
  | nil => exact more rfl
  | cons first front =>
      have sameAddress : first.1 = entry.1 := Option.some.inj isHead
      exact (List.nodup_append.mp distinct).2.2 first.1 List.mem_cons_self entry.1
        List.mem_cons_self sameAddress

/-- The last of the jobs in front of one is another job. -/
theorem Queue.Holds.last_ne_entry {prev : Address} (holds : qp.Holds (front ++ entry :: back))
    (isLast : lastAddress front = some prev) : entry.1 ≠ prev := by
  intro same
  have distinct := holds.nodup
  rw [List.map_append, List.map_cons] at distinct
  exact (List.nodup_append.mp distinct).2.2 prev (mem_of_lastAddress isLast) entry.1
    List.mem_cons_self same.symm

/-- Where other jobs are in front of one, the head stays. -/
theorem Queue.Holds.head_stays {prev : Address} (holds : qp.Holds (front ++ entry :: back))
    (isLast : lastAddress front = some prev) :
    qp.q_head = (firstAddress front).or (firstAddress back) := by
  rw [holds.head_eq, firstAddress_append]
  cases front with
  | nil => cases isLast
  | cons first front => rfl

theorem Queue.Holds.exists_prev {prev : Address} (holds : qp.Holds (front ++ entry :: back))
    (isLast : lastAddress front = some prev) : ∃ before, qp.heap.lookup prev = some before := by
  apply holds.exists_cell
  rw [List.map_append]
  exact List.mem_append_left _ (mem_of_lastAddress isLast)

theorem jobRemove_first (holds : qp.Holds (entry :: back)) :
    ∃ after, jobRemove qp entry.1 = some after ∧ after.Holds back := by
  rcases holds.cells [] entry back rfl with ⟨job, fits⟩
  have isNext : job.j_next = firstAddress back := fits.next
  have isPrev : job.j_prev = none := fits.prev
  have isHead : qp.q_head = some entry.1 := holds.head_eq
  rw [jobRemove, fits.found, Option.bind_eq_bind, Option.bind_some, if_pos isHead.symm]
  cases back with
  | nil =>
      have isTail : qp.q_tail = some entry.1 := holds.tail_eq
      rw [if_pos isTail, isNext]
      exact ⟨_, rfl, .empty _ _⟩
  | cons next back =>
      have notTail : qp.q_tail ≠ some entry.1 :=
        @Links.Chain.last_ne _ _ _ _ _ _ _ entry holds [] _ rfl (List.cons_ne_nil next back)
      have inside : next.1 ∈ (entry :: next :: back).map Prod.fst :=
        List.mem_cons_of_mem _ List.mem_cons_self
      rcases holds.exists_cell inside with ⟨second, isSecond⟩
      rw [if_neg notTail, isNext, firstAddress_cons]
      simp only [Option.bind_eq_bind, Option.bind_some, Heap.modify_eq _ isSecond]
      refine ⟨_, rfl, ?_⟩
      have removed : jobLinks.Chain (qp.heap.insert next.1 { second with j_prev := job.j_prev })
          (some next.1) ((lastAddress (next :: back)).or none) ([] ++ next :: back) := by
        apply @Links.Chain.remove _ _ _ _ _ _ _ entry [] _ holds
        intro address _ cell found
        rw [firstAddress_cons]
        apply Heap.exists_lookup_insert isSecond found
        · rintro rfl rfl
          rw [if_pos rfl]
          exact ⟨rfl, rfl, isPrev⟩
        · intro same
          rw [if_neg fun equal => same (Option.some.inj equal).symm]
          exact ⟨rfl, rfl, rfl⟩
      have sameTail : qp.q_tail = (lastAddress (next :: back)).or none := by
        rw [holds.tail_eq, lastAddress_cons_cons, Option.or_none]
      rw [← sameTail] at removed
      exact removed

theorem jobRemove_last {prev : Address} (holds : qp.Holds (front ++ [entry]))
    (isLast : lastAddress front = some prev) :
    ∃ after, jobRemove qp entry.1 = some after ∧ after.Holds front := by
  rcases holds.cells front entry [] rfl with ⟨job, fits⟩
  have isNext : job.j_next = none := fits.next
  have isPrev : job.j_prev = lastAddress front := fits.prev
  have notHead := holds.head_ne (by
    rintro rfl
    cases isLast)
  have isTail : qp.q_tail = some entry.1 := by
    rw [holds.tail_eq, lastAddress_concat]
  rcases holds.exists_prev isLast with ⟨before, isBefore⟩
  rw [jobRemove, fits.found, Option.bind_eq_bind, Option.bind_some, if_neg (Ne.symm notHead),
    if_pos isTail.symm, isPrev, isLast]
  simp only [Option.bind_eq_bind, Option.bind_some, Heap.modify_eq _ isBefore]
  refine ⟨_, rfl, ?_⟩
  have removed : jobLinks.Chain (qp.heap.insert prev { before with j_next := job.j_next })
      ((firstAddress front).or none) (lastAddress front) (front ++ []) := by
    apply Links.Chain.remove holds
    intro address _ cell found
    rw [isLast]
    apply Heap.exists_lookup_insert isBefore found
    · rintro rfl rfl
      rw [if_pos rfl]
      exact ⟨rfl, isNext, rfl⟩
    · intro same
      rw [if_neg fun equal => same (Option.some.inj equal).symm]
      exact ⟨rfl, rfl, rfl⟩
  rw [isLast, List.append_nil] at removed
  rw [Queue.Holds, holds.head_stays isLast]
  exact removed

theorem jobRemove_middle {prev : Address} {next : Address × ThreadId}
    (holds : qp.Holds (front ++ entry :: next :: back)) (isLast : lastAddress front = some prev) :
    ∃ after, jobRemove qp entry.1 = some after ∧ after.Holds (front ++ next :: back) := by
  rcases holds.cells front entry (next :: back) rfl with ⟨job, fits⟩
  have isNext : job.j_next = some next.1 := fits.next
  have isPrev : job.j_prev = some prev := fits.prev.trans isLast
  have notHead := holds.head_ne (by
    rintro rfl
    cases isLast)
  have notTail := holds.last_ne rfl (List.cons_ne_nil next back)
  have different := holds.last_ne_entry isLast
  have apart : next.1 ≠ prev := by
    have split : front ++ entry :: next :: back = (front ++ [entry]) ++ next :: back := by
      rw [List.append_assoc, List.singleton_append]
    have distinct := holds.nodup
    rw [split, List.map_append] at distinct
    intro same
    apply (List.nodup_append.mp distinct).2.2 prev _ next.1 List.mem_cons_self same.symm
    rw [List.map_append]
    exact List.mem_append_left _ (mem_of_lastAddress isLast)
  have inside : next.1 ∈ (front ++ entry :: next :: back).map Prod.fst := by
    rw [List.map_append]
    exact List.mem_append_right _ (List.mem_cons_of_mem _ List.mem_cons_self)
  rcases holds.exists_prev isLast with ⟨before, isBefore⟩
  rcases holds.exists_cell inside with ⟨behind, isBehind⟩
  have stillFound : (qp.heap.insert prev { before with j_next := some next.1 }).lookup entry.1 =
      some job := (Finmap.lookup_insert_of_ne _ different).trans fits.found
  have stillBehind : (qp.heap.insert prev { before with j_next := some next.1 }).lookup next.1 =
      some behind := (Finmap.lookup_insert_of_ne _ apart).trans isBehind
  rw [jobRemove, fits.found, Option.bind_eq_bind, Option.bind_some, if_neg (Ne.symm notHead),
    if_neg (Ne.symm notTail)]
  simp only [isPrev, isNext, Option.bind_eq_bind, Option.bind_some, Heap.modify_eq _ isBefore,
    stillFound, Heap.modify_eq _ stillBehind]
  refine ⟨_, rfl, ?_⟩
  have removed : jobLinks.Chain ((qp.heap.insert prev { before with j_next := some next.1 }).insert
      next.1 { behind with j_prev := some prev })
      ((firstAddress front).or (some next.1))
      ((lastAddress (next :: back)).or (lastAddress front)) (front ++ next :: back) := by
    apply Links.Chain.remove holds
    intro address _ cell found
    have relinked : ∃ between,
        (qp.heap.insert prev { before with j_next := some next.1 }).lookup address = some between ∧
        between.j_id = cell.j_id ∧
        between.j_next = (if some prev = some address then some next.1 else cell.j_next) ∧
        between.j_prev = cell.j_prev := by
      apply Heap.exists_lookup_insert isBefore found
      · rintro rfl rfl
        rw [if_pos rfl]
        exact ⟨rfl, rfl, rfl⟩
      · intro same
        rw [if_neg fun equal => same (Option.some.inj equal).symm]
        exact ⟨rfl, rfl, rfl⟩
    rcases relinked with ⟨between, isBetween, sameId, isJoined, samePrev⟩
    rw [isLast, firstAddress_cons]
    apply Heap.exists_lookup_insert stillBehind isBetween
    · rintro rfl rfl
      rw [if_pos rfl]
      exact ⟨sameId, isJoined, rfl⟩
    · intro same
      rw [if_neg (fun equal => same (Option.some.inj equal).symm)]
      exact ⟨sameId, isJoined, samePrev⟩
  have sameTail : qp.q_tail = (lastAddress (next :: back)).or (lastAddress front) := by
    rw [holds.tail_eq, lastAddress_append, lastAddress_cons_cons]
  rw [Queue.Holds, holds.head_stays isLast, sameTail]
  exact removed

theorem jobRemove_spec (holds : qp.Holds (front ++ entry :: back)) :
    ∃ after, jobRemove qp entry.1 = some after ∧ after.Holds (front ++ back) := by
  rcases List.eq_nil_or_concat front with rfl | ⟨init, prev, rfl⟩
  · exact jobRemove_first holds
  · have isLast : lastAddress (init.concat prev) = some prev.1 := by
      rw [List.concat_eq_append, lastAddress_concat]
    cases back with
    | nil =>
        rw [List.append_nil]
        exact jobRemove_last holds isLast
    | cons next back => exact jobRemove_middle holds isLast

end Calls

/-! ## The search -/

section Find

variable [DecidableEq ThreadId] {heap : Heap (Job ThreadId)}

theorem findFrom_path (id : ThreadId) : ∀ {jobs : List Address} {jp : Option Address} {rounds : Nat},
    heap.Path Job.j_next jp jobs → jobs.length ≤ rounds →
      findFrom heap id rounds jp =
        some (jobs.find? fun jp => (heap.lookup jp).map Job.j_id = some id)
  | [], jp, rounds, path, _ => by
      have isNull : jp = none := path
      subst isNull
      cases rounds <;> rfl
  | job :: jobs, jp, 0, _, enough => absurd enough (Nat.not_succ_le_zero _)
  | address :: jobs, jp, rounds + 1, path, enough => by
      rcases path with ⟨rfl, job, found, behind⟩
      have inRest := findFrom_path id behind (Nat.le_of_succ_le_succ enough)
      rw [findFrom, found, Option.bind_eq_bind, Option.bind_some, inRest, List.find?_cons, found,
        Option.map_some]
      by_cases same : job.j_id = id
      · rw [if_pos same, same]
        simp only [decide_true]
        rfl
      · rw [if_neg same]
        have notSame : ¬some job.j_id = some id := fun equal => same (Option.some.inj equal)
        simp only [notSame, decide_false]

theorem jobFind_finds {qp : Queue ThreadId} {entries : List (Address × ThreadId)}
    (holds : qp.Holds entries) : FindsFirst qp (entries.map Prod.fst) := by
  intro id rdlock
  rw [jobFind]
  by_cases locked : rdlock = 0
  · have path : qp.heap.Path Job.j_next qp.q_head (entries.map Prod.fst) := holds.path
    rw [if_neg (fun failed => failed locked), if_pos locked]
    exact findFrom_path id path path.length_le_card
  · rw [if_pos locked, if_neg locked]

end Find

/-! ## Runs -/

/-- The queue as it is in memory, with the identifiers left out. -/
def Linked (qp : Queue ThreadId) (jobs : List Address) : Prop :=
  ∃ entries, qp.Holds entries ∧ entries.map Prod.fst = jobs

section Linked

variable {qp : Queue ThreadId} {jobs : List Address}

theorem Linked.queued_eq (linked : Linked qp jobs) : queued qp = some jobs := by
  rcases linked with ⟨entries, holds, rfl⟩
  exact Heap.visited_eq_some_iff.mpr holds.path

theorem Linked.represents (linked : Linked qp jobs) : Represents qp jobs := by
  rcases linked with ⟨entries, holds, rfl⟩
  refine ⟨Heap.visited_eq_some_iff.mpr holds.path, Heap.visited_eq_some_iff.mpr holds.pathBack,
    holds.nodup, ?_, ?_⟩
  · rw [holds.head_eq, List.head?_map]
    rfl
  · rw [holds.tail_eq, List.getLast?_map]
    rfl

theorem Linked.step {operation : Operation ThreadId} (linked : Linked qp jobs)
    (granted : Granted qp operation) :
    ∃ next, operate qp operation = some next ∧ Linked next (effect jobs operation) := by
  have isQueued := linked.queued_eq
  rcases linked with ⟨entries, holds, rfl⟩
  cases operation with
  | jobInsert jp =>
      rcases Option.isSome_iff_exists.mp (Finmap.lookup_isSome.mpr granted.1) with ⟨job, found⟩
      rcases jobInsert_spec holds (granted.2 _ isQueued) found with ⟨next, inserted, longer⟩
      exact ⟨next, inserted, _, longer, rfl⟩
  | jobAppend jp =>
      rcases Option.isSome_iff_exists.mp (Finmap.lookup_isSome.mpr granted.1) with ⟨job, found⟩
      rcases jobAppend_spec holds (granted.2 _ isQueued) found with ⟨next, appended, longer⟩
      refine ⟨next, appended, _, longer, ?_⟩
      rw [List.map_append, effect]
      rfl
  | jobRemove jp =>
      rcases granted with ⟨jobs, sameJobs, member⟩
      rw [Option.mem_def, isQueued, Option.some.injEq] at sameJobs
      subst sameJobs
      rcases List.mem_map.mp member with ⟨entry, inside, rfl⟩
      rcases List.append_of_mem inside with ⟨front, back, rfl⟩
      rcases jobRemove_spec holds with ⟨next, removed, shorter⟩
      have distinct := holds.nodup
      rw [List.map_append, List.map_cons] at distinct
      have notInFront : entry.1 ∉ front.map Prod.fst := fun inFront =>
        (List.nodup_append.mp distinct).2.2 entry.1 inFront entry.1 List.mem_cons_self rfl
      refine ⟨next, removed, _, shorter, ?_⟩
      rw [effect, List.map_append, List.map_append, List.map_cons,
        List.erase_append_right _ notInFront, List.erase_cons_head]
  | elsewhere heap =>
      exact ⟨_, rfl, entries, holds.congr (granted _ isQueued), rfl⟩

end Linked

/-- After any sequence of operations the pointers represent one sequence of the jobs, which each
call changes as its name says, and the search finds the first of them. -/
theorem queue_represents [DecidableEq ThreadId] {heap : Heap (Job ThreadId)}
    {operations : List (Operation ThreadId)}
    (granted : EveryStep operate Granted (queueInit heap) operations) :
    ∃ qp, operations.foldlM operate (queueInit heap) = some qp ∧
      Represents qp (operations.foldl effect []) ∧ FindsFirst qp (operations.foldl effect []) := by
  have progress : ∀ (qp : Queue ThreadId) jobs operation, Linked qp jobs → Granted qp operation →
      ∃ next, operate qp operation = some next ∧ Linked next (effect jobs operation) :=
    fun _ _ _ linked isGranted => linked.step isGranted
  have start : Linked (queueInit heap) [] := ⟨[], .empty _ _, rfl⟩
  rcases exists_run_of_simulation progress start granted with ⟨qp, ran, linked⟩
  refine ⟨qp, ran, linked.represents, ?_⟩
  rcases linked with ⟨entries, holds, isEntries⟩
  rw [← isEntries]
  exact jobFind_finds holds

/-- Three jobs are queued, and the middle, the last and the only one are removed. -/
theorem queue_represents_emptied :
    ∃ qp, [.jobAppend 7, .jobInsert 9, .jobAppend 5, .jobRemove 7, .jobRemove 5, .jobRemove 9,
        .jobInsert 7].foldlM operate (queueInit ((((∅ : Heap (Job Nat)).insert 5 ⟨none, none, 1⟩).insert
          7 ⟨none, none, 2⟩).insert 9 ⟨none, none, 2⟩)) = some qp ∧
      Represents qp [7] ∧ FindsFirst qp [7] := by
  apply queue_represents
  decide

end Apue.Threads.JobQueue
