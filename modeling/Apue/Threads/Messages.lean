import Apue.Foundation.Handovers
import Apue.Foundation.LinkedHeap
import Mathlib.Data.List.Perm.Basic
import Mathlib.Logic.Relation

/-! # Messages for other threads

`enqueue_msg` and `process_msg` of `threads/condvar.c`, statement by statement, in any
number of threads. `pthread_cond_wait` gives up the lock and goes to sleep in one step, and
has the lock again when it returns, which it may do without a signal.
-/

namespace Apue.Threads.Messages

open Apue.Foundation

structure Msg where
  m_next : Option Address

/-- What a thread executes next. -/
inductive Position
  | idle
  | enqueueLock (mp : Address)
  | enqueueLink (mp : Address)
  | enqueueHead (mp : Address)
  | enqueueUnlock
  | enqueueSignal
  | processLock
  | processTest
  | processWait
  | processAsleep
  | processRelock
  | processTake
  | processNext (mp : Address)
  | processUnlock (mp : Address)
  | processing (mp : Address)
  deriving DecidableEq

/-- The thread has the lock. -/
def Position.Inside : Position → Prop
  | .enqueueLink _ => True
  | .enqueueHead _ => True
  | .enqueueUnlock => True
  | .processTest => True
  | .processWait => True
  | .processTake => True
  | .processNext _ => True
  | .processUnlock _ => True
  | _ => False

/-- The message that a thread has for itself. -/
def Position.message : Position → Option Address
  | .enqueueLock mp => some mp
  | .enqueueLink mp => some mp
  | .enqueueHead mp => some mp
  | .processUnlock mp => some mp
  | .processing mp => some mp
  | _ => none

/-- What the thread is about to do. -/
def Position.role : Position → Role
  | .enqueueUnlock => .announcing
  | .enqueueSignal => .announcing
  | .processLock => .looking
  | .processTest => .looking
  | .processWait => .looking
  | .processRelock => .looking
  | .processTake => .looking
  | .processNext _ => .looking
  | .processAsleep => .asleep
  | _ => .away

/-- What the thread has found out while it has the lock. -/
def Position.Sees (heap : Heap Msg) (workq : Option Address) : Position → Prop
  | .enqueueHead mp => heap.lookup mp = some ⟨workq⟩
  | .processWait => workq = none
  | .processTake => workq ≠ none
  | .processNext mp => workq = some mp
  | _ => True

/-- The memory, the lock and the threads, with the messages that were put on the queue and
taken from it so far. -/
structure System (Thread : Type) where
  heap : Heap Msg
  workq : Option Address
  qlock : Option Thread
  positions : Thread → Position
  enqueued : List Address
  taken : List Address

section Steps

variable {Thread : Type} [DecidableEq Thread]

/-- The thread goes to another statement. -/
def System.goes (system : System Thread) (thread : Thread) (position : Position) : System Thread :=
  { system with positions := Function.update system.positions thread position }

/-- A thread executes its next statement. -/
inductive Executes (thread : Thread) : System Thread → System Thread → Prop
  | enqueueLock {system : System Thread} {mp : Address} (here : system.positions thread = .enqueueLock mp)
      (free : system.qlock = none) :
      Executes thread system ({ system with qlock := some thread }.goes thread (.enqueueLink mp))
  | enqueueLink {system : System Thread} {mp : Address} {heap : Heap Msg}
      (here : system.positions thread = .enqueueLink mp)
      (linked : system.heap.modify mp (fun _ => ⟨system.workq⟩) = some heap) :
      Executes thread system ({ system with heap := heap }.goes thread (.enqueueHead mp))
  | enqueueHead {system : System Thread} {mp : Address} (here : system.positions thread = .enqueueHead mp) :
      Executes thread system ({ system with
        workq := some mp, enqueued := system.enqueued ++ [mp] }.goes thread .enqueueUnlock)
  | enqueueUnlock {system : System Thread} (here : system.positions thread = .enqueueUnlock) :
      Executes thread system ({ system with qlock := none }.goes thread .enqueueSignal)
  | enqueueSignal {system : System Thread} {positions : Thread → Position}
      (here : system.positions thread = .enqueueSignal)
      (woken : ∀ other, positions other = (system.goes thread .idle).positions other ∨
        system.positions other = .processAsleep ∧ positions other = .processRelock)
      (someone : ∀ sleeper, system.positions sleeper = .processAsleep →
        ∃ other, system.positions other = .processAsleep ∧ positions other = .processRelock) :
      Executes thread system { system with positions := positions }
  | processLock {system : System Thread} (here : system.positions thread = .processLock)
      (free : system.qlock = none) :
      Executes thread system ({ system with qlock := some thread }.goes thread .processTest)
  | processTest {system : System Thread} (here : system.positions thread = .processTest) :
      Executes thread system (system.goes thread
        (if system.workq = none then .processWait else .processTake))
  | processWait {system : System Thread} (here : system.positions thread = .processWait) :
      Executes thread system ({ system with qlock := none }.goes thread .processAsleep)
  | processRelock {system : System Thread} (here : system.positions thread = .processRelock)
      (free : system.qlock = none) :
      Executes thread system ({ system with qlock := some thread }.goes thread .processTest)
  | processTake {system : System Thread} {mp : Address} (here : system.positions thread = .processTake)
      (found : system.workq = some mp) : Executes thread system (system.goes thread (.processNext mp))
  | processNext {system : System Thread} {mp : Address} {msg : Msg}
      (here : system.positions thread = .processNext mp) (found : system.heap.lookup mp = some msg) :
      Executes thread system ({ system with
        workq := msg.m_next, taken := system.taken ++ [mp] }.goes thread (.processUnlock mp))
  | processUnlock {system : System Thread} {mp : Address}
      (here : system.positions thread = .processUnlock mp) :
      Executes thread system ({ system with qlock := none }.goes thread (.processing mp))
  | processing {system : System Thread} {mp : Address} (here : system.positions thread = .processing mp) :
      Executes thread system (system.goes thread .processLock)

/-- Nobody else has the message. -/
def Owned (system : System Thread) (mp : Address) : Prop :=
  mp ∈ system.heap ∧ (∀ queue, system.heap.Path Msg.m_next system.workq queue → mp ∉ queue) ∧
    ∀ thread, (system.positions thread).message ≠ some mp

/-- The program goes on, a thread wakes up without a signal, or it calls one of the two
functions. -/
inductive Step : System Thread → System Thread → Prop
  | executes {system after : System Thread} (thread : Thread) (executed : Executes thread system after) :
      Step system after
  | wakes {system : System Thread} {thread : Thread} (asleep : system.positions thread = .processAsleep) :
      Step system (system.goes thread .processRelock)
  | callsEnqueue {system : System Thread} {thread : Thread} {mp : Address}
      (idle : system.positions thread = .idle) (owned : Owned system mp) :
      Step system (system.goes thread (.enqueueLock mp))
  | callsProcess {system : System Thread} {thread : Thread} (idle : system.positions thread = .idle) :
      Step system (system.goes thread .processLock)

def System.initial (heap : Heap Msg) : System Thread where
  heap := heap
  workq := none
  qlock := none
  positions := fun _ => .idle
  enqueued := []
  taken := []

def Reachable (heap : Heap Msg) : System Thread → Prop := Relation.ReflTransGen Step (.initial heap)

/-- The queue is linked together, one thread at a time has the lock and knows what it has
found, and a message that a thread has for itself is nowhere else. -/
structure Orderly (system : System Thread) (queue : List Address) : Prop where
  path : system.heap.Path Msg.m_next system.workq queue
  lock : ∀ thread, (system.positions thread).Inside ↔ system.qlock = some thread
  sees : ∀ thread, (system.positions thread).Sees system.heap system.workq
  owned : ∀ thread mp, (system.positions thread).message = some mp → mp ∈ system.heap ∧ mp ∉ queue
  alone : ∀ thread other mp, (system.positions thread).message = some mp →
    (system.positions other).message = some mp → other = thread
  kept : system.enqueued.Perm (queue ++ system.taken)

/-- The queue and the threads, for those who wait. -/
def view (system : System Thread) (queue : List Address) : Handover Thread :=
  ⟨queue.length, fun thread => (system.positions thread).role⟩

end Steps

section Orderly

variable {Thread : Type} [DecidableEq Thread] {heap : Heap Msg} {system after : System Thread}
  {queue longer : List Address} {thread other : Thread} {position : Position} {mp : Address}

theorem sees_of_outside (outside : ¬ position.Inside) (heap : Heap Msg) (workq : Option Address) :
    position.Sees heap workq := by
  cases position with
  | enqueueHead | processWait | processTake | processNext => exact absurd trivial outside
  | _ => trivial

theorem Position.role_asleep : position.role = .asleep ↔ position = .processAsleep := by
  cases position <;> simp [Position.role]

omit [DecidableEq Thread] in
theorem Orderly.outside (orderly : Orderly system queue) (inside : (system.positions thread).Inside)
    (different : other ≠ thread) : ¬ (system.positions other).Inside := by
  intro alsoInside
  have mine := (orderly.lock thread).mp inside
  rw [(orderly.lock other).mp alsoInside, Option.some.injEq] at mine
  exact different mine

/-- One thread goes on, and may have changed the memory. -/
theorem Orderly.goes (orderly : Orderly system queue) (shared : System Thread)
    (same : shared.positions = system.positions)
    (path : shared.heap.Path Msg.m_next shared.workq longer)
    (lock : position.Inside ↔ shared.qlock = some thread)
    (locks : ∀ other, other ≠ thread → ((system.positions other).Inside ↔ shared.qlock = some other))
    (sees : position.Sees shared.heap shared.workq)
    (othersSee : ∀ other, other ≠ thread → (system.positions other).Sees shared.heap shared.workq)
    (own : ∀ mp, position.message = some mp → mp ∈ shared.heap ∧ mp ∉ longer ∧
      ∀ other, other ≠ thread → (system.positions other).message ≠ some mp)
    (othersOwn : ∀ other mp, other ≠ thread → (system.positions other).message = some mp →
      mp ∈ shared.heap ∧ mp ∉ longer)
    (kept : shared.enqueued.Perm (longer ++ shared.taken)) :
    Orderly (shared.goes thread position) longer := by
  have here : (shared.goes thread position).positions thread = position := Function.update_self _ _ _
  have there : ∀ other, other ≠ thread →
      (shared.goes thread position).positions other = system.positions other := by
    intro other different
    rw [← same]
    exact Function.update_of_ne different _ _
  refine ⟨path, fun other => ?_, fun other => ?_, fun other mp => ?_, fun first second mp => ?_, kept⟩
  · by_cases isThread : other = thread
    · rw [isThread, here]
      exact lock
    · rw [there other isThread]
      exact locks other isThread
  · by_cases isThread : other = thread
    · rw [isThread, here]
      exact sees
    · rw [there other isThread]
      exact othersSee other isThread
  · by_cases isThread : other = thread
    · rw [isThread, here]
      exact fun mine => ⟨(own mp mine).1, (own mp mine).2.1⟩
    · rw [there other isThread]
      exact othersOwn other mp isThread
  · by_cases isFirst : first = thread
    · by_cases isSecond : second = thread
      · exact fun _ _ => isSecond.trans isFirst.symm
      · rw [isFirst, here, there second isSecond]
        exact fun mine theirs => absurd theirs ((own mp mine).2.2 second isSecond)
    · by_cases isSecond : second = thread
      · rw [isSecond, here, there first isFirst]
        exact fun theirs mine => absurd theirs ((own mp mine).2.2 first isFirst)
      · rw [there first isFirst, there second isSecond]
        exact orderly.alone first second mp

/-- One thread goes on without a look at the memory, and may take the lock or give it up. -/
theorem Orderly.passes (orderly : Orderly system queue) (qlock : Option Thread)
    (lock : position.Inside ↔ qlock = some thread)
    (locks : ∀ other, other ≠ thread → ((system.positions other).Inside ↔ qlock = some other))
    (sees : position.Sees system.heap system.workq)
    (keeps : ∀ mp, position.message = some mp → (system.positions thread).message = some mp) :
    Orderly ({ system with qlock := qlock }.goes thread position) queue := by
  apply orderly.goes { system with qlock := qlock } rfl orderly.path lock locks sees
  · exact fun other _ => orderly.sees other
  · intro mp mine
    rcases orderly.owned thread mp (keeps mp mine) with ⟨inHeap, notQueued⟩
    exact ⟨inHeap, notQueued, fun other different theirs =>
      different (orderly.alone thread other mp (keeps mp mine) theirs)⟩
  · exact fun other mp _ => orderly.owned other mp
  · exact orderly.kept

theorem Orderly.stays (orderly : Orderly system queue)
    (lock : position.Inside ↔ (system.positions thread).Inside)
    (sees : position.Sees system.heap system.workq)
    (keeps : ∀ mp, position.message = some mp → (system.positions thread).message = some mp) :
    Orderly (system.goes thread position) queue :=
  orderly.passes system.qlock (lock.trans (orderly.lock thread)) (fun other _ => orderly.lock other)
    sees keeps

theorem Orderly.locks (orderly : Orderly system queue) (free : system.qlock = none)
    (inside : position.Inside) (sees : position.Sees system.heap system.workq)
    (keeps : ∀ mp, position.message = some mp → (system.positions thread).message = some mp) :
    Orderly ({ system with qlock := some thread }.goes thread position) queue := by
  apply orderly.passes _ (iff_of_true inside rfl) _ sees keeps
  intro other different
  rw [orderly.lock, free]
  simp [Ne.symm different]

theorem Orderly.unlocks (orderly : Orderly system queue) (inside : (system.positions thread).Inside)
    (outside : ¬ position.Inside)
    (keeps : ∀ mp, position.message = some mp → (system.positions thread).message = some mp) :
    Orderly ({ system with qlock := none }.goes thread position) queue := by
  apply orderly.passes _ (iff_of_false outside (Option.some_ne_none thread ∘ Eq.symm)) _
    (sees_of_outside outside _ _) keeps
  exact fun other different =>
    iff_of_false (orderly.outside inside different) (Option.some_ne_none other ∘ Eq.symm)

/-! ### The view of those who wait -/

omit [DecidableEq Thread] in
theorem view_roles : (view system queue).roles thread = (system.positions thread).role := rfl

theorem view_goes (shared : System Thread) (same : shared.positions = system.positions) (longer : List Address) :
    view (shared.goes thread position) longer = ⟨longer.length,
      Function.update (fun other => (system.positions other).role) thread position.role⟩ := by
  rw [view, System.goes, same]
  congr 1
  funext other
  by_cases isThread : other = thread
  · simp [isThread]
  · simp [isThread]

theorem view_stays (shared : System Thread) (same : shared.positions = system.positions)
    (role : position.role = (system.positions thread).role) :
    view (shared.goes thread position) queue = view system queue := by
  rw [view_goes shared same queue, role, view]
  congr 1
  exact Function.update_eq_self thread _

end Orderly

/-! ## Every step -/

section Steps

variable {Thread : Type} [DecidableEq Thread] {heap : Heap Msg} {system after : System Thread}
  {queue : List Address} {thread : Thread} {mp : Address}

/-- What a step does to the queue, in order and seen by those who wait. -/
def Keeps (system : System Thread) (queue : List Address) (after : System Thread) : Prop :=
  ∃ longer, Orderly after longer ∧ Handover.Step (view system queue) (view after longer)

theorem keeps_stays (shared : System Thread) (same : shared.positions = system.positions)
    {position : Position} (orderly : Orderly (shared.goes thread position) queue)
    (role : position.role = (system.positions thread).role) :
    Keeps system queue (shared.goes thread position) := by
  refine ⟨queue, orderly, ?_⟩
  rw [view_stays shared same role]
  exact .stay _

/-- The message is linked in front of the queue, where nobody can see it yet. -/
theorem Orderly.links (orderly : Orderly system queue) (here : system.positions thread = .enqueueLink mp)
    {linked : Heap Msg} (isLinked : system.heap.modify mp (fun _ => ⟨system.workq⟩) = some linked) :
    Orderly ({ system with heap := linked }.goes thread (.enqueueHead mp)) queue := by
  have inside : (system.positions thread).Inside := by
    rw [here]
    trivial
  have mine : (system.positions thread).message = some mp := by
    rw [here]
    rfl
  have lookups := Heap.lookup_of_modify isLinked
  have stays : ∀ address, address ∈ system.heap → address ∈ linked := by
    intro address member
    rw [← Finmap.lookup_isSome, lookups, Option.isSome_map]
    exact Finmap.lookup_isSome.mpr member
  rcases orderly.owned thread mp mine with ⟨inHeap, notQueued⟩
  apply orderly.goes { system with heap := linked } rfl
  · apply orderly.path.of_same_next
    intro address member msg found
    have different : ¬ mp = address := fun same => notQueued (same ▸ member)
    exact ⟨msg, by simp [lookups, found, different], rfl⟩
  · exact (iff_true_left trivial).mpr ((orderly.lock thread).mp inside)
  · exact fun other _ => orderly.lock other
  · rcases Option.isSome_iff_exists.mp (Finmap.lookup_isSome.mpr inHeap) with ⟨msg, found⟩
    change linked.lookup mp = some ⟨system.workq⟩
    rw [lookups, found]
    simp
  · exact fun other different => sees_of_outside (orderly.outside inside different) _ _
  · intro address isMine
    cases isMine
    exact ⟨stays mp inHeap, notQueued, fun other different theirs =>
      different (orderly.alone thread other mp mine theirs)⟩
  · intro other address _ theirs
    rcases orderly.owned other address theirs with ⟨isThere, isAbsent⟩
    exact ⟨stays address isThere, isAbsent⟩
  · exact orderly.kept

/-- Now the message is the first of the queue. -/
theorem Orderly.heads (orderly : Orderly system queue) (here : system.positions thread = .enqueueHead mp) :
    Orderly ({ system with workq := some mp, enqueued := system.enqueued ++ [mp] }.goes thread
      .enqueueUnlock) (mp :: queue) := by
  have inside : (system.positions thread).Inside := by
    rw [here]
    trivial
  have mine : (system.positions thread).message = some mp := by
    rw [here]
    rfl
  have found : system.heap.lookup mp = some ⟨system.workq⟩ := by
    have sees := orderly.sees thread
    rw [here] at sees
    exact sees
  rcases orderly.owned thread mp mine with ⟨inHeap, notQueued⟩
  apply orderly.goes { system with workq := some mp, enqueued := system.enqueued ++ [mp] } rfl
  · exact ⟨rfl, _, found, orderly.path⟩
  · exact (iff_true_left trivial).mpr ((orderly.lock thread).mp inside)
  · exact fun other _ => orderly.lock other
  · trivial
  · exact fun other different => sees_of_outside (orderly.outside inside different) _ _
  · exact nofun
  · intro other address different theirs
    rcases orderly.owned other address theirs with ⟨isThere, isAbsent⟩
    refine ⟨isThere, fun member => ?_⟩
    rcases List.mem_cons.mp member with rfl | queued
    · exact different (orderly.alone thread other _ mine theirs)
    · exact isAbsent queued
  · exact (List.perm_append_singleton mp system.enqueued).trans (orderly.kept.cons mp)

/-- The first message is taken off the queue. -/
theorem Orderly.nexts {msg : Msg} {rest : List Address} (orderly : Orderly system (mp :: rest))
    (here : system.positions thread = .processNext mp) (found : system.heap.lookup mp = some msg) :
    Orderly ({ system with workq := msg.m_next, taken := system.taken ++ [mp] }.goes thread
      (.processUnlock mp)) rest := by
  have inside : (system.positions thread).Inside := by
    rw [here]
    trivial
  rcases orderly.path with ⟨_, cell, isCell, restPath⟩
  rw [found, Option.some.injEq] at isCell
  subst isCell
  have distinct := List.nodup_cons.mp orderly.path.nodup
  apply orderly.goes { system with workq := msg.m_next, taken := system.taken ++ [mp] } rfl restPath
  · exact (iff_true_left trivial).mpr ((orderly.lock thread).mp inside)
  · exact fun other _ => orderly.lock other
  · trivial
  · exact fun other different => sees_of_outside (orderly.outside inside different) _ _
  · intro address isMine
    cases isMine
    refine ⟨Finmap.mem_iff.mpr ⟨msg, found⟩, distinct.1, fun other _ theirs => ?_⟩
    exact (orderly.owned other mp theirs).2 List.mem_cons_self
  · intro other address _ theirs
    rcases orderly.owned other address theirs with ⟨isThere, isAbsent⟩
    exact ⟨isThere, fun member => isAbsent (List.mem_cons_of_mem _ member)⟩
  · refine orderly.kept.trans ?_
    rw [← List.append_assoc]
    exact (List.perm_append_singleton mp (rest ++ system.taken)).symm

/-- A signal moves some threads that sleep. -/
theorem Orderly.signals (orderly : Orderly system queue) (here : system.positions thread = .enqueueSignal)
    {positions : Thread → Position}
    (woken : ∀ other, positions other = (system.goes thread .idle).positions other ∨
      system.positions other = .processAsleep ∧ positions other = .processRelock)
    (someone : ∀ sleeper, system.positions sleeper = .processAsleep →
      ∃ other, system.positions other = .processAsleep ∧ positions other = .processRelock) :
    Keeps system queue { system with positions := positions } := by
  have moved : Orderly (system.goes thread .idle) queue := by
    apply orderly.stays
    · rw [here]
      exact Iff.rfl
    · trivial
    · exact nofun
  have asleep : ∀ other, system.positions other = .processAsleep →
      (system.goes thread .idle).positions other = .processAsleep := by
    intro other sleeps
    have different : other ≠ thread := by
      rintro rfl
      rw [here] at sleeps
      cases sleeps
    rw [← sleeps]
    exact Function.update_of_ne different _ _
  refine ⟨queue, ⟨moved.path, fun other => ?_, fun other => ?_, fun other mp theirs => ?_,
    fun first second mp isFirst isSecond => ?_, moved.kept⟩, ?_⟩
  · rcases woken other with same | ⟨sleeps, awake⟩
    · dsimp only
      rw [same]
      exact moved.lock other
    · have lock := moved.lock other
      rw [asleep other sleeps] at lock
      dsimp only
      rw [awake]
      exact lock
  · rcases woken other with same | ⟨_, awake⟩
    · dsimp only
      rw [same]
      exact moved.sees other
    · dsimp only
      rw [awake]
      trivial
  · rcases woken other with same | ⟨_, awake⟩
    · dsimp only at theirs
      rw [same] at theirs
      exact moved.owned other mp theirs
    · dsimp only at theirs
      rw [awake] at theirs
      cases theirs
  · dsimp only at isFirst isSecond
    rcases woken first with sameFirst | ⟨_, awake⟩
    · rcases woken second with sameSecond | ⟨_, awake⟩
      · rw [sameFirst] at isFirst
        rw [sameSecond] at isSecond
        exact moved.alone first second mp isFirst isSecond
      · rw [awake] at isSecond
        cases isSecond
    · rw [awake] at isFirst
      cases isFirst
  · have roles : ∀ other, Function.update (fun other => (system.positions other).role) thread
        Role.away other = ((system.goes thread .idle).positions other).role := by
      intro other
      by_cases same : other = thread
      · simp [same, System.goes, Position.role]
      · simp [same, System.goes]
    apply Handover.Step.signal thread
    · rw [here]
      rfl
    refine ⟨fun other => ?_, fun sleeper sleeps => ?_⟩
    · dsimp only
      rw [roles]
      rcases woken other with same | ⟨sleeps, awake⟩
      · exact Or.inl (by rw [same])
      · rw [asleep other sleeps, awake]
        exact Or.inr ⟨rfl, rfl⟩
    · have isAsleep : system.positions sleeper = .processAsleep := by
        by_cases same : sleeper = thread
        · rw [same, Function.update_self] at sleeps
          cases sleeps
        · rw [Function.update_of_ne same] at sleeps
          exact Position.role_asleep.mp sleeps
      rcases someone sleeper isAsleep with ⟨other, slept, awake⟩
      refine ⟨other, ?_, ?_⟩
      · rw [roles, asleep other slept]
        rfl
      · dsimp only
        rw [awake]
        rfl

theorem Orderly.executes (orderly : Orderly system queue) (executed : Executes thread system after) :
    Keeps system queue after := by
  cases executed with
  | @enqueueLock mp here free =>
      apply keeps_stays { system with qlock := some thread } rfl
      · exact orderly.locks free trivial trivial fun _ mine => by rw [here]; exact mine
      · rw [here]
        rfl
  | enqueueLink here linked =>
      apply keeps_stays { system with heap := _ } rfl (orderly.links here linked)
      rw [here]
      rfl
  | enqueueHead here =>
      refine ⟨_, orderly.heads here, ?_⟩
      rw [view_goes { system with workq := _, enqueued := _ } rfl]
      apply Handover.Step.put thread
      rw [here]
      rfl
  | enqueueUnlock here =>
      apply keeps_stays { system with qlock := none } rfl
      · exact orderly.unlocks (by rw [here]; trivial) id nofun
      · rw [here]
        rfl
  | enqueueSignal here woken someone => exact orderly.signals here woken someone
  | processLock here free =>
      apply keeps_stays { system with qlock := some thread } rfl
      · exact orderly.locks free trivial trivial nofun
      · rw [here]
        rfl
  | processTest here =>
      apply keeps_stays system rfl
      · split
        · rename_i empty
          exact orderly.stays (by rw [here]; exact Iff.rfl) empty nofun
        · rename_i filled
          exact orderly.stays (by rw [here]; exact Iff.rfl) filled nofun
      · rw [here]
        split
        · rfl
        · rfl
  | processWait here =>
      have empty : queue = [] := by
        have sees := orderly.sees thread
        rw [here] at sees
        have path := orderly.path
        rw [sees] at path
        cases queue with
        | nil => rfl
        | cons first rest => cases path.1
      refine ⟨queue, orderly.unlocks (by rw [here]; trivial) id nofun, ?_⟩
      rw [view_goes { system with qlock := none } rfl, empty]
      apply Handover.Step.sleep thread
      rw [here]
      rfl
  | processRelock here free =>
      apply keeps_stays { system with qlock := some thread } rfl
      · exact orderly.locks free trivial trivial nofun
      · rw [here]
        rfl
  | processTake here found =>
      apply keeps_stays system rfl
      · exact orderly.stays (by rw [here]; exact Iff.rfl) found nofun
      · rw [here]
        rfl
  | @processNext mp msg here found =>
      have isFirst : system.workq = some mp := by
        have sees := orderly.sees thread
        rw [here] at sees
        exact sees
      cases queue with
      | nil =>
          have empty : system.workq = none := orderly.path
          rw [isFirst] at empty
          cases empty
      | cons first rest =>
          have same := orderly.path.1
          rw [isFirst, Option.some.injEq] at same
          subst same
          refine ⟨rest, orderly.nexts here found, ?_⟩
          rw [view_goes { system with workq := _, taken := _ } rfl]
          apply Handover.Step.take thread
          rw [here]
          rfl
  | processUnlock here =>
      apply keeps_stays { system with qlock := none } rfl
      · exact orderly.unlocks (by rw [here]; trivial) id fun _ mine => by rw [here]; exact mine
      · rw [here]
        rfl
  | processing here =>
      refine ⟨queue, orderly.stays (by rw [here]; exact Iff.rfl) trivial nofun, ?_⟩
      rw [view_goes system rfl]
      apply Handover.Step.look thread
      rw [here]
      rfl

theorem Orderly.step (orderly : Orderly system queue) (stepped : Step system after) :
    Keeps system queue after := by
  cases stepped with
  | executes thread executed => exact orderly.executes executed
  | @wakes thread asleep =>
      refine ⟨queue, orderly.stays (by rw [asleep]; exact Iff.rfl) trivial nofun, ?_⟩
      rw [view_goes system rfl]
      apply Handover.Step.wake thread
      rw [asleep]
      rfl
  | @callsEnqueue thread mp idle owned =>
      apply keeps_stays system rfl
      · apply orderly.goes system rfl orderly.path
        · have lock := orderly.lock thread
          rw [idle] at lock
          exact lock
        · exact fun other _ => orderly.lock other
        · trivial
        · exact fun other _ => orderly.sees other
        · intro address isMine
          cases isMine
          exact ⟨owned.1, owned.2.1 queue orderly.path, fun other _ => owned.2.2 other⟩
        · exact fun other address _ => orderly.owned other address
        · exact orderly.kept
      · rw [idle]
        rfl
  | @callsProcess thread idle =>
      refine ⟨queue, orderly.stays (by rw [idle]; exact Iff.rfl) trivial nofun, ?_⟩
      rw [view_goes system rfl]
      apply Handover.Step.look thread
      rw [idle]
      rfl

end Steps

/-! ## Every run -/

section Runs

variable {Thread : Type} [DecidableEq Thread] {heap : Heap Msg} {system : System Thread}
  {queue : List Address} {thread : Thread}

omit [DecidableEq Thread] in
theorem orderly_initial : Orderly (System.initial heap : System Thread) [] where
  path := rfl
  lock := fun _ => iff_of_false id (Option.some_ne_none _ ∘ Eq.symm)
  sees := fun _ => trivial
  owned := fun _ _ mine => by cases mine
  alone := fun _ _ _ mine => by cases mine
  kept := List.Perm.refl []

theorem Reachable.orderly (reachable : Reachable heap system) : ∃ queue, Orderly system queue := by
  induction reachable with
  | refl => exact ⟨[], orderly_initial⟩
  | tail _ stepped induction =>
      rcases induction with ⟨queue, orderly⟩
      rcases orderly.step stepped with ⟨longer, longerOrderly, _⟩
      exact ⟨longer, longerOrderly⟩

/-- Every message that was put on the queue is on it or was taken from it, once, and a
message that one thread has is not on the queue and no other thread has it. -/
theorem messages_handed_over (reachable : Reachable heap system) :
    ∃ queue, system.heap.Path Msg.m_next system.workq queue ∧ queue.Nodup ∧
      system.enqueued.Perm (queue ++ system.taken) ∧
      ∀ thread mp, (system.positions thread).message = some mp → mp ∈ system.heap ∧ mp ∉ queue ∧
        ∀ other, other ≠ thread → (system.positions other).message ≠ some mp := by
  rcases reachable.orderly with ⟨queue, orderly⟩
  refine ⟨queue, orderly.path, orderly.path.nodup, orderly.kept, fun thread mp mine => ?_⟩
  rcases orderly.owned thread mp mine with ⟨inHeap, notQueued⟩
  exact ⟨inHeap, notQueued, fun other different theirs =>
    different (orderly.alone thread other mp mine theirs)⟩

variable [Fintype Thread]

omit [DecidableEq Thread] in
theorem served_initial : (view (System.initial heap : System Thread) []).Served :=
  fun _ _ => Nat.zero_le _

theorem Reachable.served (reachable : Reachable heap system) :
    ∃ queue, Orderly system queue ∧ (view system queue).Served := by
  induction reachable with
  | refl => exact ⟨[], orderly_initial, served_initial⟩
  | tail _ stepped induction =>
      rcases induction with ⟨queue, orderly, served⟩
      rcases orderly.step stepped with ⟨longer, longerOrderly, viewed⟩
      exact ⟨longer, longerOrderly, served.step viewed⟩

/-- While a thread waits, every message on the queue has another thread that is about to
signal or to look. -/
theorem waiting_served (reachable : Reachable heap system)
    (path : system.heap.Path Msg.m_next system.workq queue)
    (asleep : system.positions thread = .processAsleep) :
    queue.length ≤
      (Finset.univ.filter fun other => (system.positions other).role.Ready).card := by
  rcases reachable.served with ⟨viewed, orderly, served⟩
  rw [path.unique orderly.path]
  apply served thread
  rw [view_roles, asleep]
  rfl

/-! ## Threads that can go on -/

omit [Fintype Thread] in
theorem Executes.awake {after : System Thread} (executed : Executes thread system after) :
    system.positions thread ≠ .idle ∧ system.positions thread ≠ .processAsleep := by
  cases executed <;> simp [*]

omit [Fintype Thread] in
/-- Whoever has the lock can go on: there is a message where it takes one. -/
theorem Orderly.executes_inside (orderly : Orderly system queue)
    (inside : (system.positions thread).Inside) : ∃ after, Executes thread system after := by
  cases here : system.positions thread with
  | enqueueLink mp =>
      have inHeap := (orderly.owned thread mp (by rw [here]; rfl)).1
      rcases Option.isSome_iff_exists.mp (Finmap.lookup_isSome.mpr inHeap) with ⟨msg, found⟩
      exact ⟨_, .enqueueLink here (Heap.modify_eq _ found)⟩
  | enqueueHead mp => exact ⟨_, .enqueueHead here⟩
  | enqueueUnlock => exact ⟨_, .enqueueUnlock here⟩
  | processTest => exact ⟨_, .processTest here⟩
  | processWait => exact ⟨_, .processWait here⟩
  | processTake =>
      have sees := orderly.sees thread
      rw [here] at sees
      rcases Option.ne_none_iff_exists'.mp sees with ⟨mp, found⟩
      exact ⟨_, .processTake here found⟩
  | processNext mp =>
      have sees := orderly.sees thread
      rw [here] at sees
      have path := orderly.path
      rw [sees] at path
      cases queue with
      | nil => cases path
      | cons first rest =>
          rcases path with ⟨same, msg, found, _⟩
          cases same
          exact ⟨_, .processNext here found⟩
  | processUnlock mp => exact ⟨_, .processUnlock here⟩
  | _ =>
      rw [here] at inside
      exact inside.elim

omit [Fintype Thread] in
/-- Where nobody has the lock, whoever is in one of the functions and does not sleep can go
on. -/
theorem executes_free (free : system.qlock = none) (outside : ¬ (system.positions thread).Inside)
    (called : system.positions thread ≠ .idle) (awake : system.positions thread ≠ .processAsleep) :
    ∃ after, Executes thread system after := by
  cases here : system.positions thread with
  | idle => exact absurd here called
  | enqueueLock mp => exact ⟨_, .enqueueLock here free⟩
  | enqueueSignal =>
      let everyone : Thread → Position := fun other =>
        if system.positions other = .processAsleep then .processRelock
        else (system.goes thread .idle).positions other
      refine ⟨{ system with positions := everyone }, .enqueueSignal here (fun other => ?_) ?_⟩
      · by_cases asleep : system.positions other = .processAsleep
        · exact Or.inr ⟨asleep, if_pos asleep⟩
        · exact Or.inl (if_neg asleep)
      · exact fun sleeper asleep => ⟨sleeper, asleep, if_pos asleep⟩
  | processLock => exact ⟨_, .processLock here free⟩
  | processRelock => exact ⟨_, .processRelock here free⟩
  | processing mp => exact ⟨_, .processing here⟩
  | processAsleep => exact absurd here awake
  | _ =>
      rw [here] at outside
      exact absurd trivial outside

/-- Where no thread can go on, all have left the functions or wait, and nobody waits with a
message on the queue. -/
theorem stuck_waits_for_message (reachable : Reachable heap system)
    (stuck : ∀ thread after, ¬ Executes thread system after) :
    (∀ thread, system.positions thread = .idle ∨ system.positions thread = .processAsleep) ∧
      (∀ thread, system.positions thread = .processAsleep → system.workq = none) := by
  rcases reachable.served with ⟨queue, orderly, served⟩
  have outside : ∀ thread, ¬ (system.positions thread).Inside := by
    intro thread inside
    rcases orderly.executes_inside inside with ⟨after, executed⟩
    exact stuck thread after executed
  have free : system.qlock = none := by
    cases locked : system.qlock with
    | none => rfl
    | some owner => exact absurd ((orderly.lock owner).mpr locked) (outside owner)
  have quiet : ∀ thread, system.positions thread = .idle ∨ system.positions thread = .processAsleep := by
    intro thread
    by_contra busy
    rcases executes_free free (outside thread) (fun idle => busy (Or.inl idle))
      (fun asleep => busy (Or.inr asleep)) with ⟨after, executed⟩
    exact stuck thread after executed
  refine ⟨quiet, fun sleeper asleep => ?_⟩
  cases queue with
  | nil => exact orderly.path
  | cons mp rest =>
      have sleeps : (view system (mp :: rest)).roles sleeper = .asleep := by
        rw [view_roles, asleep]
        rfl
      rcases served.someone_ready sleeps (Nat.succ_pos _) with ⟨thread, isReady⟩
      rcases quiet thread with idle | isAsleep
      · rw [view_roles, idle] at isReady
        exact absurd isReady (by decide)
      · rw [view_roles, isAsleep] at isReady
        exact absurd isReady (by decide)

end Runs

/-! ## One thread waits, another has put a message on the queue -/

def oneMessage : Heap Msg := (∅ : Heap Msg).insert 1 ⟨none⟩

def System.waiting : System Bool :=
  (({ (System.initial oneMessage).goes false .processLock with qlock := some false }.goes false
    .processTest).goes false .processWait)

def System.asleep : System Bool := { System.waiting with qlock := none }.goes false .processAsleep

def System.linked : System Bool :=
  { { System.asleep.goes true (.enqueueLock 1) with qlock := some true }.goes true (.enqueueLink 1) with
    heap := oneMessage.insert 1 ⟨none⟩ }.goes true (.enqueueHead 1)

def System.announced : System Bool :=
  { System.linked with workq := some 1, enqueued := [1] }.goes true .enqueueUnlock

theorem lookup_oneMessage : oneMessage.lookup 1 = some ⟨none⟩ := Finmap.lookup_insert _

theorem owned_asleep : Owned System.asleep 1 := by
  refine ⟨Finmap.mem_iff.mpr ⟨_, lookup_oneMessage⟩, fun queue path => ?_, fun thread => ?_⟩
  · have empty : System.asleep.heap.Path Msg.m_next System.asleep.workq [] := rfl
    rw [path.unique empty]
    exact List.not_mem_nil
  · cases thread with
    | false => exact (Option.some_ne_none 1).symm
    | true => exact (Option.some_ne_none 1).symm

theorem reachable_asleep : Reachable oneMessage System.asleep := by
  have called : Reachable oneMessage ((System.initial oneMessage : System Bool).goes false .processLock) :=
    .tail .refl (.callsProcess rfl)
  have locked := called.tail (.executes false (.processLock rfl rfl))
  have tested := locked.tail (.executes false (.processTest rfl))
  exact tested.tail (.executes false (.processWait rfl))

theorem reachable_announced : Reachable oneMessage System.announced := by
  have modified : oneMessage.modify 1 (fun _ => ⟨none⟩) = some (oneMessage.insert 1 ⟨none⟩) :=
    Heap.modify_eq _ lookup_oneMessage
  have called : Reachable oneMessage (System.asleep.goes true (.enqueueLock 1)) :=
    reachable_asleep.tail (.callsEnqueue rfl owned_asleep)
  have locked := called.tail (.executes true (.enqueueLock rfl rfl))
  have linked : Reachable oneMessage System.linked :=
    locked.tail (.executes true (.enqueueLink rfl modified))
  exact linked.tail (.executes true (.enqueueHead rfl))

theorem path_announced : System.announced.heap.Path Msg.m_next System.announced.workq [1] :=
  ⟨rfl, ⟨none⟩, Finmap.lookup_insert _, rfl⟩

theorem messages_handed_over_announced :
    ∃ queue, System.announced.heap.Path Msg.m_next System.announced.workq queue ∧ queue.Nodup ∧
      System.announced.enqueued.Perm (queue ++ System.announced.taken) ∧
      ∀ thread mp, (System.announced.positions thread).message = some mp →
        mp ∈ System.announced.heap ∧ mp ∉ queue ∧
          ∀ other, other ≠ thread → (System.announced.positions other).message ≠ some mp :=
  messages_handed_over reachable_announced

theorem waiting_served_announced :
    [1].length ≤
      (Finset.univ.filter fun other => (System.announced.positions other).role.Ready).card := by
  have asleep : System.announced.positions false = .processAsleep := rfl
  exact waiting_served reachable_announced path_announced asleep

theorem stuck_asleep (thread : Bool) (after : System Bool) : ¬ Executes thread System.asleep after := by
  intro executed
  cases thread with
  | false => exact executed.awake.2 rfl
  | true => exact executed.awake.1 rfl

theorem stuck_waits_for_message_asleep :
    (∀ thread, System.asleep.positions thread = .idle ∨
        System.asleep.positions thread = .processAsleep) ∧
      (∀ thread, System.asleep.positions thread = .processAsleep → System.asleep.workq = none) :=
  stuck_waits_for_message reachable_asleep stuck_asleep

end Apue.Threads.Messages
