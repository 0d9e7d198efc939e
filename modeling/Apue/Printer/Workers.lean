import Apue.Foundation.LinkedHeap
import Apue.Foundation.Run

/-! # The list of client threads of the print daemon

`printer/printd.c` keeps one `struct worker_thread` for every thread that
serves a client, in a doubly linked list whose head is the global `workers`.
Each function below runs with `workerlock` held, so one call is one step. A
function is undefined (`none`) when it follows a pointer to a freed node or
walks for ever.
-/

namespace Apue.Printer.Workers

open Apue.Foundation

structure WorkerThread where
  next : Option Address
  prev : Option Address
  tid : Nat
  sockfd : Nat
  deriving DecidableEq

structure Memory where
  heap : Heap WorkerThread
  workers : Option Address

/-- The nodes met by `for (wtp = workers; wtp != NULL; wtp = wtp->next)`. -/
def Memory.visited (memory : Memory) : Option (List Address) :=
  memory.heap.visited WorkerThread.next memory.workers

/-- `add_worker`, with the node `malloc` returned. A head that is already
there stays the head: the new node only becomes its predecessor. -/
def addWorker (memory : Memory) (wtp : Address) (tid sockfd : Nat) :
    Option Memory :=
  let heap := memory.heap.insert wtp
    { tid, sockfd, prev := none, next := memory.workers }
  match memory.workers with
  | none => some { heap, workers := some wtp }
  | some head => do
      let heap ← Heap.modify heap head fun cell => { cell with prev := some wtp }
      return { heap, workers := some head }

/-- `kill_workers`: the threads it cancels, in order. -/
def killWorkers (memory : Memory) : Option (List Nat) := do
  let nodes ← memory.visited
  nodes.mapM fun wtp => (memory.heap.lookup wtp).map WorkerThread.tid

/-- The loop of `client_cleanup` up to the node of `tid`; `some none` when it
reaches the end of the list. -/
def findWorker (heap : Heap WorkerThread) (tid : Nat) :
    Nat → Option Address → Option (Option Address)
  | _, none => some none
  | 0, some _ => none
  | fuel + 1, some wtp => do
      let cell ← heap.lookup wtp
      if cell.tid = tid then return some wtp
      findWorker heap tid fuel cell.next

/-- Unlink `wtp`, as `client_cleanup` does before it leaves the lock. -/
def unlinkWorker (memory : Memory) (wtp : Address) : Option Memory := do
  let cell ← memory.heap.lookup wtp
  let heap ← match cell.next with
    | none => some memory.heap
    | some next => Heap.modify memory.heap next fun other => { other with prev := cell.prev }
  let cell ← heap.lookup wtp
  match cell.prev with
  | none => return { heap, workers := cell.next }
  | some prev =>
      let heap ← Heap.modify heap prev fun other => { other with next := cell.next }
      return { memory with heap }

/-- `client_cleanup`: the descriptor it closes, if it finds the thread. -/
def clientCleanup (memory : Memory) (tid : Nat) :
    Option (Memory × Option Nat) := do
  match ← findWorker memory.heap tid memory.heap.keys.card memory.workers with
  | none => return (memory, none)
  | some wtp =>
      let unlinked ← unlinkWorker memory wtp
      let cell ← unlinked.heap.lookup wtp
      return ({ unlinked with heap := unlinked.heap.erase wtp }, some cell.sockfd)

/-! ## Runs -/

/-- One call made by a client thread. `malloc` is the node `add_worker`
obtains; without one the thread exits and never gets on the list. -/
inductive Action
  | addWorker (tid sockfd : Nat) (malloc : Option Address)
  | clientCleanup (tid : Nat)
  deriving DecidableEq

/-- The memory, and the threads that were added and not yet cleaned up, each
with its socket. The program does not store the second component. -/
structure System where
  memory : Memory
  live : List (Nat × Nat)

def System.initial : System where
  memory := { heap := ∅, workers := none }
  live := []

def step (system : System) : Action → Option System
  | .addWorker _ _ none => some system
  | .addWorker tid sockfd (some wtp) => do
      let memory ← addWorker system.memory wtp tid sockfd
      return { memory, live := (tid, sockfd) :: system.live }
  | .clientCleanup tid => do
      let (memory, _) ← clientCleanup system.memory tid
      return { memory, live := system.live.filter fun thread => thread.1 ≠ tid }

/-- What the C library and the thread library grant a call: `malloc` returns
an address that is not in use, and no two threads on the list share their ID. -/
def Granted (system : System) : Action → Prop
  | .addWorker _ _ none => True
  | .addWorker tid _ (some wtp) =>
      wtp ∉ system.memory.heap ∧ tid ∉ system.live.map Prod.fst
  | .clientCleanup _ => True

/-- `add_worker` links a node into an empty list. -/
def AddsToEmpty (system : System) : Action → Prop
  | .addWorker _ _ (some _) => system.memory.workers = none
  | _ => True

/-- The list is exactly the set of live threads. -/
structure Truthful (system : System) : Prop where
  /-- Following `next` meets every live thread once, and nothing else. -/
  visits : ∃ nodes cells, system.memory.visited = some nodes ∧ nodes.Nodup ∧
    nodes.mapM system.memory.heap.lookup = some cells ∧
    (cells.map fun cell => (cell.tid, cell.sockfd)).Perm system.live
  kills : ∃ cancelled, killWorkers system.memory = some cancelled ∧
    cancelled.Perm (system.live.map Prod.fst)
  closes : ∀ tid sockfd, (tid, sockfd) ∈ system.live →
    ∃ memory, clientCleanup system.memory tid = some (memory, some sockfd)

/-! ## One thread at a time -/

/-- The list is empty or holds one node without neighbours. -/
inductive AtMostOne : System → Prop
  | empty : AtMostOne ⟨⟨∅, none⟩, []⟩
  | single (wtp : Address) (tid sockfd : Nat) :
      AtMostOne ⟨⟨Finmap.singleton wtp ⟨none, none, tid, sockfd⟩, some wtp⟩,
        [(tid, sockfd)]⟩

theorem clientCleanup_single (wtp : Address) (tid sockfd : Nat) :
    clientCleanup ⟨Finmap.singleton wtp ⟨none, none, tid, sockfd⟩, some wtp⟩ tid =
      some (⟨∅, none⟩, some sockfd) := by
  have erased : (Finmap.singleton wtp (⟨none, none, tid, sockfd⟩ : WorkerThread)).erase wtp
      = (∅ : Heap WorkerThread) := by
    apply Finmap.ext_lookup
    intro address
    by_cases equal : address = wtp
    · subst equal
      simp
    · rw [Finmap.lookup_erase_ne equal, Finmap.lookup_empty]
      exact Finmap.lookup_eq_none.mpr (by simp [equal])
  simp [clientCleanup, findWorker, unlinkWorker, Finmap.keys_singleton, erased]

theorem step_clientCleanup_single (wtp : Address) (tid sockfd : Nat) :
    step ⟨⟨Finmap.singleton wtp ⟨none, none, tid, sockfd⟩, some wtp⟩, [(tid, sockfd)]⟩
        (.clientCleanup tid) = some ⟨⟨∅, none⟩, []⟩ := by
  simp [step, clientCleanup_single]

theorem AtMostOne.truthful {system : System} (sole : AtMostOne system) :
    Truthful system := by
  cases sole with
  | empty =>
      refine ⟨⟨[], [], rfl, List.nodup_nil, rfl, .refl _⟩, ⟨[], rfl, .refl _⟩, ?_⟩
      intro tid sockfd member
      cases member
  | single wtp tid sockfd =>
      have visited : (Memory.mk (Finmap.singleton wtp ⟨none, none, tid, sockfd⟩)
          (some wtp)).visited = some [wtp] :=
        Heap.visited_eq_some_iff.mpr
          ⟨rfl, _, Finmap.lookup_singleton_eq, rfl⟩
      refine ⟨⟨[wtp], [⟨none, none, tid, sockfd⟩], visited,
        List.nodup_singleton _, by simp, .refl _⟩, ⟨[tid], ?_, .refl _⟩, ?_⟩
      · simp [killWorkers, visited]
      · intro other descriptor member
        obtain ⟨rfl, rfl⟩ : other = tid ∧ descriptor = sockfd := by
          simpa using member
        exact ⟨_, clientCleanup_single wtp other descriptor⟩

theorem AtMostOne.step {system : System} {action : Action}
    (sole : AtMostOne system) (adds : AddsToEmpty system action) :
    ∃ next, step system action = some next ∧ AtMostOne next := by
  cases action with
  | addWorker tid sockfd malloc =>
      cases malloc with
      | none => exact ⟨system, rfl, sole⟩
      | some wtp =>
          cases sole with
          | empty => exact ⟨_, rfl, .single wtp tid sockfd⟩
          | single => simp [AddsToEmpty] at adds
  | clientCleanup tid =>
      cases sole with
      | empty => exact ⟨_, rfl, .empty⟩
      | single wtp owner sockfd =>
          by_cases own : owner = tid
          · subst own
            exact ⟨_, step_clientCleanup_single wtp owner sockfd, .empty⟩
          · refine ⟨_, ?_, .single wtp owner sockfd⟩
            simp [Workers.step, clientCleanup, findWorker, own,
              Finmap.keys_singleton]

/-! ## A second thread is not reached -/

/-- A node added to a list that has a head is not on the path from that head. -/
theorem addWorker_visited {memory memory' : Memory} {head wtp : Address}
    {tid sockfd : Nat} {nodes : List Address}
    (isHead : memory.workers = some head) (fresh : wtp ∉ memory.heap)
    (visits : memory.visited = some nodes)
    (added : addWorker memory wtp tid sockfd = some memory') :
    memory'.visited = some nodes := by
  simp only [addWorker, isHead, Option.bind_eq_bind, Option.bind_eq_some_iff] at added
  obtain ⟨heap, modified, equal⟩ := added
  obtain ⟨cell, found, heapEqual⟩ := Option.map_eq_some_iff.mp modified
  obtain rfl : memory' = { heap, workers := some head } := by simpa using equal.symm
  rw [Memory.visited, Heap.visited_eq_some_iff] at visits ⊢
  rw [isHead] at visits
  refine visits.of_same_next fun address member other lookup => ?_
  have old : address ≠ wtp := fun equal =>
    fresh (equal ▸ visits.mem_keys address member)
  subst heapEqual
  by_cases atHead : address = head
  · subst atHead
    rw [Finmap.lookup_insert_of_ne _ old] at found
    have sameCell : other = cell := by simpa [lookup] using found
    subst sameCell
    exact ⟨_, Finmap.lookup_insert _, rfl⟩
  · refine ⟨other, ?_, rfl⟩
    rw [Finmap.lookup_insert_of_ne _ atHead, Finmap.lookup_insert_of_ne _ old, lookup]

theorem mapM_length {α β : Type} {f : α → Option β} :
    ∀ {values : List α} {results : List β},
      values.mapM f = some results → results.length = values.length
  | [], results, mapped => by
      obtain rfl : results = [] := by simpa using mapped.symm
      rfl
  | value :: values, results, mapped => by
      simp only [List.mapM_cons, Option.bind_eq_bind, Option.bind_eq_some_iff] at mapped
      obtain ⟨result, _, rest, restMapped, equal⟩ := mapped
      obtain rfl : results = result :: rest := by simpa using equal.symm
      simp [mapM_length restMapped]

/-- The number of nodes met from the head is the number of live threads. -/
theorem Truthful.length_visited {system : System} (truthful : Truthful system)
    {nodes : List Address} (visits : system.memory.visited = some nodes) :
    nodes.length = system.live.length := by
  obtain ⟨nodes', cells, visits', _, mapped, permutation⟩ := truthful.visits
  obtain rfl : nodes = nodes' := by simpa [visits] using visits'
  rw [← mapM_length mapped, ← permutation.length_eq, List.length_map]

theorem Truthful.adds_to_empty {system next : System} {action : Action}
    (truthful : Truthful system) (granted : Granted system action)
    (stepped : step system action = some next) (nextTruthful : Truthful next) :
    AddsToEmpty system action := by
  match action with
  | .clientCleanup _ => trivial
  | .addWorker _ _ none => trivial
  | .addWorker tid sockfd (some wtp) =>
      show system.memory.workers = none
      by_contra nonempty
      obtain ⟨head, isHead⟩ := Option.ne_none_iff_exists'.mp nonempty
      obtain ⟨nodes, _, visits, _⟩ := truthful.visits
      simp only [step, Option.bind_eq_bind, Option.bind_eq_some_iff] at stepped
      obtain ⟨memory, added, equal⟩ := stepped
      obtain rfl : next = ⟨memory, (tid, sockfd) :: system.live⟩ := by
        simpa using equal.symm
      have visits' := addWorker_visited isHead granted.1 visits added
      have before := truthful.length_visited visits
      have after := nextTruthful.length_visited visits'
      simp at after
      omega

theorem adds_to_empty_of_truthful {system : System} {actions : List Action}
    (granted : EveryStep step Granted system actions)
    (completes : Completes step system actions)
    (truthful : EveryState step Truthful system actions) :
    EveryStep step AddsToEmpty system actions := by
  induction actions generalizing system with
  | nil => trivial
  | cons action actions induction =>
      obtain ⟨next, stepped, rest⟩ := completes
      refine ⟨truthful.1.adds_to_empty granted.1 stepped
        (truthful.2 next stepped).head, fun other stepped' => ?_⟩
      obtain rfl : next = other := by simpa [stepped] using stepped'
      exact induction (granted.2 next stepped) rest (truthful.2 next stepped)

/-- The list is truthful throughout a run exactly when no thread is added while
another one is on the list. -/
theorem workers_truthful_iff (actions : List Action)
    (granted : EveryStep step Granted .initial actions) :
    Completes step .initial actions ∧ EveryState step Truthful .initial actions ↔
      EveryStep step AddsToEmpty .initial actions := by
  constructor
  · rintro ⟨completes, truthful⟩
    exact adds_to_empty_of_truthful granted completes truthful
  · intro adds
    refine ⟨completes_of_invariant (fun _ _ => AtMostOne.step) .empty adds, ?_⟩
    refine EveryState.mono (fun _ => AtMostOne.truthful)
      (everyState_of_invariant ?_ .empty adds)
    intro system action next sole here stepped
    obtain ⟨next', stepped', nextSole⟩ := sole.step here
    obtain rfl : next = next' := by simpa [stepped] using stepped'
    exact nextSole

/-- Two clients, one after the other. -/
theorem workers_truthful_one_by_one :
    Completes step .initial
        [.addWorker 7 3 (some 100), .clientCleanup 7, .addWorker 8 3 (some 100)] ∧
      EveryState step Truthful .initial
        [.addWorker 7 3 (some 100), .clientCleanup 7, .addWorker 8 3 (some 100)] ↔
      EveryStep step AddsToEmpty .initial
        [.addWorker 7 3 (some 100), .clientCleanup 7, .addWorker 8 3 (some 100)] := by
  apply workers_truthful_iff
  refine ⟨⟨Finmap.notMem_empty, List.not_mem_nil⟩, fun second stepped => ?_⟩
  obtain rfl : _ = second := Option.some.inj stepped
  refine ⟨trivial, fun third stepped => ?_⟩
  obtain rfl : _ = third :=
    Option.some.inj ((step_clientCleanup_single 100 7 3).symm.trans stepped)
  exact ⟨⟨Finmap.notMem_empty, List.not_mem_nil⟩, fun _ _ => trivial⟩

/-- Two clients at once: the second thread is not on the list. -/
theorem workers_not_truthful :
    EveryStep step Granted .initial
        [.addWorker 7 3 (some 100), .addWorker 8 4 (some 200)] ∧
      ¬ EveryState step Truthful .initial
        [.addWorker 7 3 (some 100), .addWorker 8 4 (some 200)] := by
  constructor
  · refine ⟨⟨Finmap.notMem_empty, List.not_mem_nil⟩, fun second stepped => ?_⟩
    obtain rfl : _ = second := Option.some.inj stepped
    refine ⟨⟨?_, by simp [System.initial]⟩, fun _ _ => trivial⟩
    simp [System.initial, Finmap.notMem_empty]
  · rintro ⟨_, later⟩
    have first := (later _ rfl).1
    have both : Truthful _ := (later _ rfl).2 _ rfl
    -- Both before and after the second call the walk meets one node.
    obtain ⟨nodes, _, visits, _⟩ := first.visits
    have visits' := addWorker_visited rfl (by simp [System.initial, Finmap.notMem_empty])
      visits (rfl : addWorker _ 200 8 4 = some _)
    have before := first.length_visited visits
    have after := both.length_visited visits'
    simp [System.initial] at before after
    omega

end Apue.Printer.Workers
