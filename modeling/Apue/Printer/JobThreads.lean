import Apue.Foundation.Handovers
import Apue.Printer.JobQueue
import Mathlib.Data.Fintype.Option

/-! # The threads at the job queue

`add_job` in any number of client threads and the printer thread of `printer/printd.c`, with the
lock and the condition variable. What a thread does to the queue while it has the lock is one step.
`pthread_cond_wait` gives up the lock and goes to sleep in one step, and has the lock again when it
returns, which it may do without a signal.
-/

namespace Apue.Printer.JobThreads

open Apue.Foundation
open JobQueue (Action Arranged EachOnce Ending Granted)

inductive ClientPosition (Request : Type)
  | idle
  | addLock (reqp : Request) (jobid : Int)
  | addInsert (reqp : Request) (jobid : Int)
  | addUnlock
  | addSignal

inductive PrinterPosition
  | lock
  | test
  | wait
  | asleep
  | relock
  | remove
  | unlock
  | printing
  | replaceLock
  | replaceInsert
  | replaceUnlock
  | nanosleep
  deriving DecidableEq

/-- The thread has the lock. -/
def ClientPosition.Inside {Request : Type} : ClientPosition Request → Prop
  | .addInsert _ _ => True
  | .addUnlock => True
  | _ => False

def PrinterPosition.Inside : PrinterPosition → Prop
  | .test => True
  | .wait => True
  | .remove => True
  | .unlock => True
  | .replaceInsert => True
  | .replaceUnlock => True
  | _ => False

/-- The printer thread has a job in its hands. -/
def PrinterPosition.Holds : PrinterPosition → Prop
  | .unlock => True
  | .printing => True
  | .replaceLock => True
  | .replaceInsert => True
  | _ => False

/-- What the printer thread has found out while it has the lock. -/
def PrinterPosition.Sees (jobhead : Option Address) : PrinterPosition → Prop
  | .wait => jobhead = none
  | .remove => jobhead ≠ none
  | _ => True

/-- What the thread is about to do. -/
def ClientPosition.role {Request : Type} : ClientPosition Request → Role
  | .addUnlock => .announcing
  | .addSignal => .announcing
  | _ => .away

def PrinterPosition.role : PrinterPosition → Role
  | .asleep => .asleep
  | .unlock => .away
  | .printing => .away
  | .replaceLock => .away
  | .replaceInsert => .away
  | _ => .looking

/-- The queue, the thread that has `joblock` (`none` is the printer thread), and where the threads
are. -/
structure System (Client Request : Type) where
  jobs : JobQueue.System Request
  joblock : Option (Option Client)
  printer : PrinterPosition
  clients : Client → ClientPosition Request

section Steps

variable {Client Request : Type} [DecidableEq Client]

/-- A client thread goes to another statement. -/
def System.goes (system : System Client Request) (client : Client) (position : ClientPosition Request) :
    System Client Request :=
  { system with clients := Function.update system.clients client position }

/-- A client thread executes its next statement. The cell of the new job is one that nobody has. -/
inductive ClientExecutes (client : Client) : System Client Request → System Client Request → Prop
  | addLock {system : System Client Request} {reqp : Request} {jobid : Int}
      (here : system.clients client = .addLock reqp jobid) (free : system.joblock = none) :
      ClientExecutes client system
        ({ system with joblock := some (some client) }.goes client (.addInsert reqp jobid))
  | addInsert {system : System Client Request} {reqp : Request} {jobid : Int} {malloc : Address}
      {jobs : JobQueue.System Request} (here : system.clients client = .addInsert reqp jobid)
      (fresh : malloc ∉ system.jobs.memory.heap)
      (isAdded : JobQueue.step system.jobs (.addJob malloc reqp jobid) = some jobs) :
      ClientExecutes client system ({ system with jobs := jobs }.goes client .addUnlock)
  | addUnlock {system : System Client Request} (here : system.clients client = .addUnlock) :
      ClientExecutes client system ({ system with joblock := none }.goes client .addSignal)
  | addSignal {system : System Client Request} (here : system.clients client = .addSignal) :
      ClientExecutes client system
        ({ system with
          printer := if system.printer = PrinterPosition.asleep then .relock else system.printer }.goes
            client .idle)

/-- The printer thread executes its next statement. -/
inductive PrinterExecutes : System Client Request → System Client Request → Prop
  | lock {system : System Client Request} (here : system.printer = .lock ∨ system.printer = .relock)
      (free : system.joblock = none) :
      PrinterExecutes system { system with joblock := some none, printer := .test }
  | test {system : System Client Request} (here : system.printer = .test) :
      PrinterExecutes system { system with
        printer := if system.jobs.memory.jobhead = none then .wait else .remove }
  | wait {system : System Client Request} (here : system.printer = .wait) :
      PrinterExecutes system { system with joblock := none, printer := .asleep }
  | remove {system : System Client Request} {jobs : JobQueue.System Request}
      (here : system.printer = .remove) (isRemoved : JobQueue.step system.jobs .pickUp = some jobs) :
      PrinterExecutes system { system with jobs := jobs, printer := .unlock }
  | unlock {system : System Client Request} (here : system.printer = .unlock) :
      PrinterExecutes system { system with joblock := none, printer := .printing }
  | free {system : System Client Request} {jobs : JobQueue.System Request} (ending : Ending)
      (here : system.printer = .printing) (isFreed : JobQueue.step system.jobs (.free ending) = some jobs) :
      PrinterExecutes system { system with jobs := jobs, printer := .lock }
  | defer {system : System Client Request} (here : system.printer = .printing) :
      PrinterExecutes system { system with printer := .replaceLock }
  | replaceLock {system : System Client Request} (here : system.printer = .replaceLock)
      (free : system.joblock = none) :
      PrinterExecutes system { system with joblock := some none, printer := .replaceInsert }
  | replaceInsert {system : System Client Request} {jobs : JobQueue.System Request}
      (here : system.printer = .replaceInsert)
      (isReplaced : JobQueue.step system.jobs .replaceJob = some jobs) :
      PrinterExecutes system { system with jobs := jobs, printer := .replaceUnlock }
  | replaceUnlock {system : System Client Request} (here : system.printer = .replaceUnlock) :
      PrinterExecutes system { system with joblock := none, printer := .nanosleep }
  | nanosleep {system : System Client Request} (here : system.printer = .nanosleep) :
      PrinterExecutes system { system with printer := .lock }

/-- A thread goes on, a client thread has a job to add, or the printer thread wakes up without a
signal. -/
inductive Step : System Client Request → System Client Request → Prop
  | client {system after : System Client Request} (client : Client)
      (executed : ClientExecutes client system after) : Step system after
  | printer {system after : System Client Request} (executed : PrinterExecutes system after) :
      Step system after
  | calls {system : System Client Request} {client : Client} (idle : system.clients client = .idle)
      (reqp : Request) (jobid : Int) : Step system (system.goes client (.addLock reqp jobid))
  | wakes {system : System Client Request} (asleep : system.printer = .asleep) :
      Step system { system with printer := .relock }

def System.initial : System Client Request where
  jobs := .initial
  joblock := none
  printer := .lock
  clients := fun _ => .idle

def Reachable : System Client Request → Prop := Relation.ReflTransGen Step .initial

/-- The queue is in order, one thread at a time has the lock, and the printer thread knows what it
has found and what it holds. -/
structure Orderly (system : System Client Request) (hand : Option Nat) (entries : List (Address × Nat)) :
    Prop where
  arranged : Arranged system.jobs hand entries
  printerLock : system.printer.Inside ↔ system.joblock = some none
  clientLock : ∀ client, (system.clients client).Inside ↔ system.joblock = some (some client)
  sees : system.printer.Sees system.jobs.memory.jobhead
  holds : system.printer.Holds ↔ system.jobs.jp ≠ none

def System.roles (system : System Client Request) : Option Client → Role
  | none => system.printer.role
  | some client => (system.clients client).role

/-- The queue and the threads, for those who wait. -/
def view (system : System Client Request) (entries : List (Address × Nat)) : Handover (Option Client) :=
  ⟨entries.length, system.roles⟩

end Steps

/-! ## What a call does to the numbers of jobs -/

section Calls

variable {Request : Type} {jobs next : JobQueue.System Request} {hand other : Option Nat}
  {entries rest : List (Address × Nat)}

/-- A job is freed, in hand or in the list. -/
theorem length_of_arranged (arranged : Arranged jobs hand entries) :
    jobs.ended.length + hand.toList.length + entries.length = jobs.added := by
  have counted := congrArg List.length arranged.order
  rw [List.length_append, List.length_append, List.length_map, List.length_map, List.length_range] at counted
  exact counted

theorem hand_count (arranged : Arranged jobs hand entries) :
    hand.toList.length = if jobs.jp = none then 0 else 1 := by
  split
  · rename_i noJob
    rw [arranged.empty noJob]
    rfl
  · rename_i isJob
    rcases Option.ne_none_iff_exists'.mp isJob with ⟨jp, isHeld⟩
    rcases (arranged.held jp isHeld).2 with ⟨job, _, isHand⟩
    rw [isHand]
    rfl

theorem added_of_addJob {malloc : Address} {reqp : Request} {jobid : Int}
    (isAdded : JobQueue.step jobs (.addJob malloc reqp jobid) = some next) :
    next.added = jobs.added + 1 ∧ next.ended = jobs.ended ∧ next.jp = jobs.jp := by
  rcases Option.bind_eq_some_iff.mp isAdded with ⟨memory, _, isNext⟩
  cases isNext
  exact ⟨rfl, rfl, rfl⟩

theorem added_of_pickUp (isRemoved : JobQueue.step jobs .pickUp = some next) :
    next.added = jobs.added ∧ next.ended = jobs.ended ∧ next.jp ≠ none := by
  rcases Option.bind_eq_some_iff.mp isRemoved with ⟨jp, _, isNext⟩
  rcases Option.bind_eq_some_iff.mp isNext with ⟨memory, _, isNext⟩
  cases isNext
  exact ⟨rfl, rfl, Option.some_ne_none jp⟩

theorem added_of_replaceJob (isReplaced : JobQueue.step jobs .replaceJob = some next) :
    next.added = jobs.added ∧ next.ended = jobs.ended ∧ next.jp = none := by
  rcases Option.bind_eq_some_iff.mp isReplaced with ⟨jp, _, isNext⟩
  rcases Option.bind_eq_some_iff.mp isNext with ⟨memory, _, isNext⟩
  cases isNext
  exact ⟨rfl, rfl, rfl⟩

theorem added_of_free {ending : Ending} (isFreed : JobQueue.step jobs (.free ending) = some next) :
    next.added = jobs.added ∧ next.ended.length = jobs.ended.length + 1 ∧ next.jp = none := by
  rcases Option.bind_eq_some_iff.mp isFreed with ⟨jp, _, isNext⟩
  rcases Option.bind_eq_some_iff.mp isNext with ⟨job, _, isNext⟩
  cases isNext
  exact ⟨rfl, List.length_append, rfl⟩

/-- A granted action keeps the queue in order. -/
theorem arranged_of_step {action : Action Request} (arranged : Arranged jobs hand entries)
    (granted : Granted jobs action) (stepped : JobQueue.step jobs action = some next) :
    ∃ hand entries, Arranged next hand entries := by
  rcases arranged.next granted with ⟨same, isSame, still⟩
  rw [stepped, Option.some.injEq] at isSame
  rw [isSame]
  exact still

end Calls

/-! ## The steps -/

section Orderly

variable {Client Request : Type} [DecidableEq Client] {system after : System Client Request}
  {hand : Option Nat} {entries longer : List (Address × Nat)} {client : Client}
  {position : ClientPosition Request}

/-- What a step does to the queue, in order and seen by those who wait. -/
def Keeps (system : System Client Request) (entries : List (Address × Nat)) (after : System Client Request) :
    Prop :=
  ∃ hand longer, Orderly after hand longer ∧ Handover.Step (view system entries) (view after longer)

theorem roles_goes (system shared : System Client Request) (same : shared.clients = system.clients)
    (samePrinter : shared.printer = system.printer) (client : Client) (position : ClientPosition Request) :
    (shared.goes client position).roles = Function.update system.roles (some client) position.role := by
  funext thread
  cases thread with
  | none =>
      rw [Function.update_of_ne (Option.some_ne_none client).symm]
      exact congrArg PrinterPosition.role samePrinter
  | some other =>
      change (Function.update shared.clients client position other).role = _
      by_cases isClient : other = client
      · rw [isClient, Function.update_self, Function.update_self]
      · rw [Function.update_of_ne (fun isSome => isClient (Option.some.inj isSome)),
          Function.update_of_ne isClient, same]
        rfl

theorem roles_printer (same : after.clients = system.clients) :
    after.roles = Function.update system.roles none after.printer.role := by
  funext thread
  cases thread with
  | none => rw [Function.update_self]; rfl
  | some other =>
      rw [Function.update_of_ne (Option.some_ne_none other)]
      exact congrArg (fun clients => (clients other).role) same

theorem roles_idle (printer : PrinterPosition) (other : Client) :
    ({ system with printer := printer }.goes client .idle).roles (some other) =
      Function.update system.roles (some client) .away (some other) := by
  change (Function.update system.clients client .idle other).role = _
  by_cases isClient : other = client
  · rw [isClient, Function.update_self, Function.update_self]
    rfl
  · rw [Function.update_of_ne (fun isSome => isClient (Option.some.inj isSome)),
      Function.update_of_ne isClient]
    rfl

theorem role_asleep {printer : PrinterPosition} : printer.role = .asleep ↔ printer = .asleep := by
  cases printer <;> decide

theorem client_awake (position : ClientPosition Request) : position.role ≠ .asleep := by
  cases position <;> exact fun asleep => by cases asleep

theorem System.goes_self (system : System Client Request) (client : Client)
    (position : ClientPosition Request) : (system.goes client position).clients client = position :=
  Function.update_self _ _ _

theorem System.goes_of_ne {other : Client} (different : other ≠ client) (system : System Client Request)
    (position : ClientPosition Request) :
    (system.goes client position).clients other = system.clients other :=
  Function.update_of_ne different _ _

omit [DecidableEq Client] in
/-- Nobody else has the lock. -/
theorem Orderly.printer_outside (orderly : Orderly system hand entries)
    (inside : (system.clients client).Inside) : ¬ system.printer.Inside := by
  intro alsoInside
  have isPrinter := orderly.printerLock.mp alsoInside
  rw [(orderly.clientLock client).mp inside, Option.some.injEq] at isPrinter
  cases isPrinter

/-- A client thread goes on, and may take the lock or give it up. -/
theorem Orderly.client_goes (orderly : Orderly system hand entries) (joblock : Option (Option Client))
    (printerLock : system.printer.Inside ↔ joblock = some none)
    (lock : position.Inside ↔ joblock = some (some client))
    (locks : ∀ other, other ≠ client →
      ((system.clients other).Inside ↔ joblock = some (some other))) :
    Orderly ({ system with joblock := joblock }.goes client position) hand entries where
  arranged := orderly.arranged
  printerLock := printerLock
  clientLock := by
    intro other
    by_cases isClient : other = client
    · rw [isClient, System.goes_self]
      exact lock
    · rw [System.goes_of_ne isClient]
      exact locks other isClient
  sees := orderly.sees
  holds := orderly.holds

omit [DecidableEq Client] in
/-- The printer thread goes on, and may take the lock or give it up. -/
theorem Orderly.printer_goes (orderly : Orderly system hand entries) (joblock : Option (Option Client))
    {printer : PrinterPosition} (printerLock : printer.Inside ↔ joblock = some none)
    (locks : ∀ client, (system.clients client).Inside ↔ joblock = some (some client))
    (sees : printer.Sees system.jobs.memory.jobhead) (holds : printer.Holds ↔ system.printer.Holds) :
    Orderly { system with joblock := joblock, printer := printer } hand entries where
  arranged := orderly.arranged
  printerLock := printerLock
  clientLock := locks
  sees := sees
  holds := holds.trans orderly.holds

theorem sees_of_outside {position : PrinterPosition} (outside : ¬ position.Inside)
    (jobhead : Option Address) : position.Sees jobhead := by
  cases position with
  | wait | remove => exact absurd trivial outside
  | _ => trivial

omit [DecidableEq Client] in
/-- The printer thread takes the lock. -/
theorem Orderly.printer_locks (orderly : Orderly system hand entries) (free : system.joblock = none)
    {printer : PrinterPosition} (inside : printer.Inside) (sees : printer.Sees system.jobs.memory.jobhead)
    (holds : printer.Holds ↔ system.printer.Holds) :
    Orderly { system with joblock := some none, printer := printer } hand entries := by
  apply orderly.printer_goes _ (iff_of_true inside rfl) _ sees holds
  intro client
  rw [orderly.clientLock, free]
  simp

omit [DecidableEq Client] in
/-- The printer thread gives the lock up. -/
theorem Orderly.printer_unlocks (orderly : Orderly system hand entries) (inside : system.printer.Inside)
    {printer : PrinterPosition} (outside : ¬ printer.Inside)
    (holds : printer.Holds ↔ system.printer.Holds) :
    Orderly { system with joblock := none, printer := printer } hand entries := by
  apply orderly.printer_goes _ (iff_of_false outside (Option.some_ne_none none).symm) _
    (sees_of_outside outside _) holds
  intro client
  rw [orderly.clientLock, orderly.printerLock.mp inside]
  simp

/-- A step of a client thread that those who wait do not see. -/
theorem keeps_client {joblock : Option (Option Client)}
    (still : Orderly ({ system with joblock := joblock }.goes client position) hand entries)
    (role : position.role = (system.clients client).role) :
    Keeps system entries ({ system with joblock := joblock }.goes client position) := by
  have unchanged : ({ system with joblock := joblock }.goes client position).roles = system.roles := by
    rw [roles_goes system { system with joblock := joblock } rfl rfl, role]
    exact Function.update_eq_self _ _
  refine ⟨hand, entries, still, ?_⟩
  rw [view, view, unchanged]
  exact .stay _

/-- The new job is at the end of the queue, and nobody knows about it yet. -/
theorem Orderly.inserts (orderly : Orderly system hand entries) {reqp : Request} {jobid : Int}
    {malloc : Address} {jobs : JobQueue.System Request}
    (here : system.clients client = .addInsert reqp jobid) (fresh : malloc ∉ system.jobs.memory.heap)
    (isAdded : JobQueue.step system.jobs (.addJob malloc reqp jobid) = some jobs) :
    Keeps system entries ({ system with jobs := jobs }.goes client .addUnlock) := by
  have inside : (system.clients client).Inside := by
    rw [here]
    trivial
  have isAway : (system.clients client).role = .away := by
    rw [here]
    rfl
  rcases added_of_addJob isAdded with ⟨added, ended, jp⟩
  rcases arranged_of_step orderly.arranged (by exact fresh) isAdded with ⟨hand', longer, arranged⟩
  have oneMore : longer.length = entries.length + 1 := by
    have before := length_of_arranged orderly.arranged
    have after := length_of_arranged arranged
    rw [hand_count arranged, jp, ← hand_count orderly.arranged, added, ended] at after
    omega
  refine ⟨hand', longer, ⟨arranged, orderly.printerLock, fun other => ?_,
    sees_of_outside (orderly.printer_outside inside) _, ?_⟩, ?_⟩
  · by_cases isClient : other = client
    · rw [isClient, System.goes_self]
      exact (iff_true_left trivial).mpr ((orderly.clientLock client).mp inside)
    · rw [System.goes_of_ne isClient]
      exact orderly.clientLock other
  · have holds := orderly.holds
    rw [← jp] at holds
    exact holds
  · rw [view, view, roles_goes system { system with jobs := jobs } rfl rfl, oneMore]
    exact .put (some client) isAway

/-- The signal wakes the printer thread, if it sleeps. -/
theorem Orderly.signals (orderly : Orderly system hand entries)
    (here : system.clients client = .addSignal) :
    Keeps system entries ({ system with
      printer := if system.printer = PrinterPosition.asleep then .relock else system.printer }.goes
        client .idle) := by
  have announcing : (system.clients client).role = .announcing := by
    rw [here]
    rfl
  have outside : ¬ (system.clients client).Inside := by
    rw [here]
    exact id
  have outsideLock : (ClientPosition.idle : ClientPosition Request).Inside ↔
      system.joblock = some (some client) := (iff_of_false id outside).trans (orderly.clientLock client)
  have still : Orderly (system.goes client .idle) hand entries :=
    orderly.client_goes system.joblock orderly.printerLock outsideLock fun other _ => orderly.clientLock other
  by_cases sleeps : system.printer = .asleep
  · rw [if_pos sleeps]
    have lock : PrinterPosition.relock.Inside ↔ system.joblock = some none := by
      have lock := orderly.printerLock
      rw [sleeps] at lock
      exact lock
    have holds : PrinterPosition.relock.Holds ↔ (system.goes client .idle).printer.Holds := by
      have samePrinter : (system.goes client .idle).printer = .asleep := sleeps
      rw [samePrinter]
      exact Iff.rfl
    refine ⟨hand, entries, still.printer_goes system.joblock lock still.clientLock trivial holds, ?_⟩
    apply Handover.Step.signal (some client) announcing
    refine ⟨fun thread => ?_, fun _ _ => ⟨none, ?_, rfl⟩⟩
    · cases thread with
      | none =>
          rw [Function.update_of_ne (Option.some_ne_none client).symm]
          exact Or.inr ⟨congrArg PrinterPosition.role sleeps, rfl⟩
      | some other => exact Or.inl (roles_idle _ other)
    · rw [Function.update_of_ne (Option.some_ne_none client).symm]
      exact congrArg PrinterPosition.role sleeps
  · rw [if_neg sleeps]
    refine ⟨hand, entries, still, ?_⟩
    apply Handover.Step.signal (some client) announcing
    refine ⟨fun thread => Or.inl ?_, fun sleeper asleep => ?_⟩
    · exact congrFun (roles_goes system system rfl rfl client .idle) thread
    · cases sleeper with
      | none =>
          rw [Function.update_of_ne (Option.some_ne_none client).symm] at asleep
          exact absurd (role_asleep.mp asleep) sleeps
      | some other =>
          rw [← roles_idle system.printer other] at asleep
          exact absurd asleep (client_awake _)

theorem Orderly.client_step (orderly : Orderly system hand entries)
    (executed : ClientExecutes client system after) : Keeps system entries after := by
  cases executed with
  | addLock here free =>
      apply keeps_client
      · apply orderly.client_goes
        · rw [orderly.printerLock, free]
          simp
        · exact iff_of_true trivial rfl
        · intro other different
          rw [orderly.clientLock, free]
          simp [Ne.symm different]
      · rw [here]
        rfl
  | addInsert here fresh isAdded => exact orderly.inserts here fresh isAdded
  | addUnlock here =>
      have inside : (system.clients client).Inside := by
        rw [here]
        trivial
      apply keeps_client
      · apply orderly.client_goes
        · exact iff_of_false (orderly.printer_outside inside) (Option.some_ne_none none).symm
        · exact iff_of_false id (Option.some_ne_none (some client)).symm
        · intro other different
          rw [orderly.clientLock, (orderly.clientLock client).mp inside]
          simp [Ne.symm different]
      · rw [here]
        rfl
  | addSignal here => exact orderly.signals here

/-- A step of the printer thread that those who wait do not see. -/
theorem keeps_printer {joblock : Option (Option Client)} {printer : PrinterPosition}
    (still : Orderly { system with joblock := joblock, printer := printer } hand entries)
    (role : printer.role = system.printer.role) :
    Keeps system entries { system with joblock := joblock, printer := printer } := by
  have unchanged : System.roles { system with joblock := joblock, printer := printer } = system.roles := by
    have same := @roles_printer _ _ _ system { system with joblock := joblock, printer := printer } rfl
    rw [role] at same
    exact same.trans (Function.update_eq_self _ _)
  refine ⟨hand, entries, still, ?_⟩
  rw [view, view, unchanged]
  exact .stay _

omit [DecidableEq Client] in
/-- The printer thread changes the queue. -/
theorem Orderly.printer_acts (orderly : Orderly system hand entries) {action : Action Request}
    {jobs : JobQueue.System Request} (printer : PrinterPosition) (granted : Granted system.jobs action)
    (stepped : JobQueue.step system.jobs action = some jobs)
    (lock : printer.Inside ↔ system.printer.Inside) (sees : printer.Sees jobs.memory.jobhead)
    (holds : printer.Holds ↔ jobs.jp ≠ none) :
    ∃ hand' longer, Orderly { system with jobs := jobs, printer := printer } hand' longer ∧
      jobs.ended.length + (if jobs.jp = none then 0 else 1) + longer.length = jobs.added ∧
      system.jobs.ended.length + (if system.jobs.jp = none then 0 else 1) + entries.length =
        system.jobs.added := by
  rcases arranged_of_step orderly.arranged granted stepped with ⟨hand', longer, arranged⟩
  refine ⟨hand', longer, ⟨arranged, lock.trans orderly.printerLock, orderly.clientLock, sees, holds⟩,
    ?_, ?_⟩
  · rw [← hand_count arranged]
    exact length_of_arranged arranged
  · rw [← hand_count orderly.arranged]
    exact length_of_arranged orderly.arranged

theorem Orderly.printer_step (orderly : Orderly system hand entries)
    (executed : PrinterExecutes system after) : Keeps system entries after := by
  have lock := orderly.printerLock
  have sees := orderly.sees
  have holds := orderly.holds
  cases executed with
  | lock here free =>
      apply keeps_printer
      · apply orderly.printer_locks free (by trivial) (by trivial)
        rcases here with here | here <;> rw [here] <;> exact Iff.rfl
      · rcases here with here | here <;> rw [here] <;> rfl
  | test here =>
      rw [here] at lock
      split
      · rename_i isEmpty
        apply keeps_printer
        · exact orderly.printer_goes system.joblock lock orderly.clientLock isEmpty
            (by rw [here]; exact Iff.rfl)
        · rw [here]
          rfl
      · rename_i filled
        apply keeps_printer
        · exact orderly.printer_goes system.joblock lock orderly.clientLock filled
            (by rw [here]; exact Iff.rfl)
        · rw [here]
          rfl
  | wait here =>
      rw [here] at sees
      have isEmpty : entries = [] := orderly.arranged.chain.eq_nil_of_head sees
      refine ⟨hand, entries, orderly.printer_unlocks (by rw [here]; trivial) id
        (by rw [here]; exact Iff.rfl), ?_⟩
      rw [view, view, isEmpty, @roles_printer _ _ _ system { system with joblock := none, printer := _ } rfl]
      exact .sleep none (congrArg PrinterPosition.role here)
  | @remove jobs here isRemoved =>
      rw [here] at lock sees holds
      have noJob : system.jobs.jp = none := Classical.not_not.mp fun isJob => holds.mpr isJob
      rcases added_of_pickUp isRemoved with ⟨added, ended, jp⟩
      rcases orderly.printer_acts .unlock (by exact ⟨noJob, sees⟩) isRemoved (by rw [here]; exact Iff.rfl)
        trivial (iff_of_true trivial jp) with ⟨hand', longer, still, now, before⟩
      have oneLess : entries.length = longer.length + 1 := by
        rw [if_neg jp, added, ended] at now
        rw [if_pos noJob] at before
        omega
      refine ⟨hand', longer, still, ?_⟩
      rw [view, view, oneLess, @roles_printer _ _ _ system { system with jobs := jobs, printer := _ } rfl]
      exact .take none (congrArg PrinterPosition.role here)
  | unlock here =>
      apply keeps_printer
      · exact orderly.printer_unlocks (by rw [here]; trivial) id (by rw [here]; exact Iff.rfl)
      · rw [here]
        rfl
  | @free jobs ending here isFreed =>
      rw [here] at holds
      have isJob : system.jobs.jp ≠ none := holds.mp trivial
      rcases added_of_free isFreed with ⟨added, ended, jp⟩
      rcases orderly.printer_acts .lock (by exact isJob) isFreed (by rw [here]; exact Iff.rfl) trivial
        (iff_of_false id (not_not.mpr jp)) with ⟨hand', longer, still, now, before⟩
      have sameLength : entries.length = longer.length := by
        rw [if_pos jp, added, ended] at now
        rw [if_neg isJob] at before
        omega
      refine ⟨hand', longer, still, ?_⟩
      rw [view, view, sameLength, @roles_printer _ _ _ system { system with jobs := jobs, printer := _ } rfl]
      exact .look none (congrArg PrinterPosition.role here)
  | defer here =>
      rw [here] at lock
      apply keeps_printer
      · exact orderly.printer_goes system.joblock lock orderly.clientLock trivial
          (by rw [here]; exact Iff.rfl)
      · rw [here]
        rfl
  | replaceLock here free =>
      apply keeps_printer
      · exact orderly.printer_locks free trivial trivial (by rw [here]; exact Iff.rfl)
      · rw [here]
        rfl
  | @replaceInsert jobs here isReplaced =>
      rw [here] at holds
      have isJob : system.jobs.jp ≠ none := holds.mp trivial
      rcases added_of_replaceJob isReplaced with ⟨added, ended, jp⟩
      rcases orderly.printer_acts .replaceUnlock (by exact isJob) isReplaced (by rw [here]; exact Iff.rfl)
        trivial (iff_of_false id (not_not.mpr jp)) with ⟨hand', longer, still, now, before⟩
      have oneMore : longer.length = entries.length + 1 := by
        rw [if_pos jp, added, ended] at now
        rw [if_neg isJob] at before
        omega
      refine ⟨hand', longer, still, ?_⟩
      rw [view, view, oneMore, @roles_printer _ _ _ system { system with jobs := jobs, printer := _ } rfl]
      exact .putBack none (congrArg PrinterPosition.role here)
  | replaceUnlock here =>
      apply keeps_printer
      · exact orderly.printer_unlocks (by rw [here]; trivial) id (by rw [here]; exact Iff.rfl)
      · rw [here]
        rfl
  | nanosleep here =>
      rw [here] at lock
      apply keeps_printer
      · exact orderly.printer_goes system.joblock lock orderly.clientLock trivial
          (by rw [here]; exact Iff.rfl)
      · rw [here]
        rfl

theorem Orderly.step (orderly : Orderly system hand entries) (stepped : Step system after) :
    Keeps system entries after := by
  cases stepped with
  | client client executed => exact orderly.client_step executed
  | printer executed => exact orderly.printer_step executed
  | @calls client idle reqp jobid =>
      apply keeps_client
      · apply orderly.client_goes system.joblock orderly.printerLock _ fun other _ => orderly.clientLock other
        have lock := orderly.clientLock client
        rw [idle] at lock
        exact lock
      · rw [idle]
        rfl
  | wakes asleep =>
      have lock := orderly.printerLock
      rw [asleep] at lock
      refine ⟨hand, entries, orderly.printer_goes system.joblock lock orderly.clientLock trivial
        (by rw [asleep]; exact Iff.rfl), ?_⟩
      have isAsleep : system.roles none = .asleep := congrArg PrinterPosition.role asleep
      rw [view, view, @roles_printer _ _ _ system { system with printer := .relock } rfl]
      exact .wake none isAsleep

/-! ## Every run -/

omit [DecidableEq Client] in
theorem orderly_initial : Orderly (.initial : System Client Request) none [] where
  arranged := .initial
  printerLock := iff_of_false id (Option.some_ne_none none).symm
  clientLock := fun client => iff_of_false id (Option.some_ne_none (some client)).symm
  sees := trivial
  holds := iff_of_false id (not_not.mpr rfl)

theorem Reachable.orderly (reachable : Reachable system) : ∃ hand entries, Orderly system hand entries := by
  induction reachable with
  | refl => exact ⟨none, [], orderly_initial⟩
  | tail _ stepped hypothesis =>
      rcases hypothesis with ⟨hand, entries, orderly⟩
      rcases orderly.step stepped with ⟨hand', longer, still, _⟩
      exact ⟨hand', longer, still⟩

/-- What the thread that has its turn does to the queue is defined. -/
structure Defined (system : System Client Request) : Prop where
  addInsert : ∀ client reqp jobid malloc, system.clients client = .addInsert reqp jobid →
    malloc ∉ system.jobs.memory.heap →
      ∃ jobs, JobQueue.step system.jobs (.addJob malloc reqp jobid) = some jobs
  remove : system.printer = .remove → ∃ jobs, JobQueue.step system.jobs .pickUp = some jobs
  free : system.printer = .printing →
    ∀ ending, ∃ jobs, JobQueue.step system.jobs (.free ending) = some jobs
  replaceInsert : system.printer = .replaceInsert →
    ∃ jobs, JobQueue.step system.jobs .replaceJob = some jobs

omit [DecidableEq Client] in
theorem Orderly.defined (orderly : Orderly system hand entries) : Defined system where
  addInsert := by
    intro client reqp jobid malloc _ fresh
    rcases orderly.arranged.addJob fresh reqp jobid with ⟨jobs, isAdded, _⟩
    exact ⟨jobs, isAdded⟩
  remove := by
    intro here
    have sees := orderly.sees
    have holds := orderly.holds
    rw [here] at sees holds
    have noJob : system.jobs.jp = none := Classical.not_not.mp fun isJob => holds.mpr isJob
    rcases orderly.arranged.pickUp noJob sees with ⟨jobs, _, _, isRemoved, _⟩
    exact ⟨jobs, isRemoved⟩
  free := by
    intro here ending
    have holds := orderly.holds
    rw [here] at holds
    rcases Option.ne_none_iff_exists'.mp (holds.mp trivial) with ⟨jp, isHeld⟩
    rcases orderly.arranged.free isHeld ending with ⟨jobs, isFreed, _⟩
    exact ⟨jobs, isFreed⟩
  replaceInsert := by
    intro here
    have holds := orderly.holds
    rw [here] at holds
    rcases Option.ne_none_iff_exists'.mp (holds.mp trivial) with ⟨jp, isHeld⟩
    rcases orderly.arranged.replaceJob isHeld with ⟨jobs, _, isReplaced, _⟩
    exact ⟨jobs, isReplaced⟩

/-- However the threads take turns, no job is lost or doubled and none overtakes another, no pointer
goes astray, and one thread at a time has the lock. -/
theorem threads_placeOnce (reachable : Reachable system) : EachOnce system.jobs ∧ Defined system ∧
    (∀ client, (system.clients client).Inside → ¬ system.printer.Inside ∧
      ∀ other, (system.clients other).Inside → other = client) := by
  rcases reachable.orderly with ⟨hand, entries, orderly⟩
  refine ⟨orderly.arranged.eachOnce, orderly.defined, fun client inside =>
    ⟨orderly.printer_outside inside, fun other alsoInside => ?_⟩⟩
  have isClient := (orderly.clientLock client).mp inside
  rw [(orderly.clientLock other).mp alsoInside, Option.some.injEq, Option.some.injEq] at isClient
  exact isClient

/-! ## No signal is missed -/

section Served

variable [Fintype Client]

theorem Reachable.served (reachable : Reachable system) :
    ∃ hand entries, Orderly system hand entries ∧ (view system entries).Served := by
  induction reachable with
  | refl => exact ⟨none, [], orderly_initial, fun _ _ => Nat.zero_le _⟩
  | tail _ stepped hypothesis =>
      rcases hypothesis with ⟨hand, entries, orderly, served⟩
      rcases orderly.step stepped with ⟨hand', longer, still, viewed⟩
      exact ⟨hand', longer, still, served.step viewed⟩

/-- A client thread that has added a job and has not signalled yet. -/
def Announces (system : System Client Request) (client : Client) : Prop :=
  system.clients client = .addUnlock ∨ system.clients client = .addSignal

omit [DecidableEq Client] [Fintype Client] in
theorem announces_of_role (role : (system.clients client).role.Ready) : Announces system client := by
  cases here : system.clients client with
  | addUnlock => exact Or.inl here
  | addSignal => exact Or.inr here
  | _ =>
      rw [here] at role
      rcases role with isAnnouncing | isLooking
      · cases isAnnouncing
      · cases isLooking

/-- While the printer thread sleeps and there are jobs, some client thread is about to signal. -/
theorem Reachable.announced (reachable : Reachable system) (asleep : system.printer = .asleep)
    (isJob : system.jobs.memory.jobhead ≠ none) : ∃ client, Announces system client := by
  rcases reachable.served with ⟨hand, entries, orderly, served⟩
  have sleeps : (view system entries).roles none = .asleep := congrArg PrinterPosition.role asleep
  have filled : 0 < (view system entries).stock := by
    apply Nat.pos_of_ne_zero
    intro isZero
    rw [List.length_eq_zero_iff.mp isZero] at orderly
    exact isJob orderly.arranged.chain.head_eq
  rcases served.someone_ready sleeps filled with ⟨thread, isReady⟩
  cases thread with
  | none =>
      rw [sleeps] at isReady
      exact absurd isReady (by decide)
  | some client => exact ⟨client, announces_of_role isReady⟩

end Served

/-- No thread that is at work can go on. -/
structure Stopped (system : System Client Request) : Prop where
  clients : ∀ client after, ¬ ClientExecutes client system after
  printer : ∀ after, ¬ PrinterExecutes system after

theorem ClientExecutes.busy (executed : ClientExecutes client system after) :
    system.clients client ≠ .idle := by
  cases executed <;> simp [*]

omit [DecidableEq Client] in
theorem PrinterExecutes.awake (executed : PrinterExecutes system after) : system.printer ≠ .asleep := by
  cases executed with
  | lock here => rcases here with here | here <;> rw [here] <;> decide
  | _ => simp [*]

/-- Whoever has the lock can go on. -/
theorem Orderly.lock_free (orderly : Orderly system hand entries) (stopped : Stopped system) :
    system.joblock = none := by
  cases isLock : system.joblock with
  | none => rfl
  | some owner =>
      cases owner with
      | none =>
          have inside := orderly.printerLock.mpr isLock
          cases here : system.printer with
          | test => exact absurd (.test here) (stopped.printer _)
          | wait => exact absurd (.wait here) (stopped.printer _)
          | remove =>
              rcases orderly.defined.remove here with ⟨jobs, isRemoved⟩
              exact absurd (.remove here isRemoved) (stopped.printer _)
          | unlock => exact absurd (.unlock here) (stopped.printer _)
          | replaceInsert =>
              rcases orderly.defined.replaceInsert here with ⟨jobs, isReplaced⟩
              exact absurd (.replaceInsert here isReplaced) (stopped.printer _)
          | replaceUnlock => exact absurd (.replaceUnlock here) (stopped.printer _)
          | _ =>
              rw [here] at inside
              exact inside.elim
      | some client =>
          have inside := (orderly.clientLock client).mpr isLock
          cases here : system.clients client with
          | addInsert reqp jobid =>
              rcases Infinite.exists_notMem_finset system.jobs.memory.heap.keys with ⟨malloc, isFree⟩
              have fresh : malloc ∉ system.jobs.memory.heap :=
                fun member => isFree (Finmap.mem_keys.mpr member)
              rcases orderly.defined.addInsert client reqp jobid malloc here fresh with ⟨jobs, isAdded⟩
              exact absurd (.addInsert here fresh isAdded) (stopped.clients client _)
          | addUnlock => exact absurd (.addUnlock here) (stopped.clients client _)
          | _ =>
              rw [here] at inside
              exact inside.elim

/-- Where no thread that is at work can go on, the printer thread waits for a job, there is none, and
no client thread has one to add. -/
theorem threads_stopped [Fintype Client] (reachable : Reachable system) (stopped : Stopped system) :
    system.printer = .asleep ∧ system.jobs.memory.jobhead = none ∧
      ∀ client, system.clients client = .idle := by
  rcases reachable.orderly with ⟨hand, entries, orderly⟩
  have free := orderly.lock_free stopped
  have idle : ∀ client, system.clients client = .idle := by
    intro client
    have outside : ¬ (system.clients client).Inside := by
      rw [orderly.clientLock, free]
      exact (Option.some_ne_none (some client)).symm
    cases here : system.clients client with
    | idle => rfl
    | addLock reqp jobid => exact absurd (.addLock here free) (stopped.clients client _)
    | addSignal => exact absurd (.addSignal here) (stopped.clients client _)
    | addInsert | addUnlock =>
        rw [here] at outside
        exact absurd trivial outside
  have asleep : system.printer = .asleep := by
    have outside : ¬ system.printer.Inside := by
      rw [orderly.printerLock, free]
      exact (Option.some_ne_none none).symm
    cases here : system.printer with
    | asleep => rfl
    | lock => exact absurd (.lock (Or.inl here) free) (stopped.printer _)
    | relock => exact absurd (.lock (Or.inr here) free) (stopped.printer _)
    | printing => exact absurd (.defer here) (stopped.printer _)
    | replaceLock => exact absurd (.replaceLock here free) (stopped.printer _)
    | nanosleep => exact absurd (.nanosleep here) (stopped.printer _)
    | test | wait | remove | unlock | replaceInsert | replaceUnlock =>
        rw [here] at outside
        exact absurd trivial outside
  refine ⟨asleep, Classical.not_not.mp fun isJob => ?_, idle⟩
  rcases reachable.announced asleep isJob with ⟨client, isUnlock | isSignal⟩
  · rw [idle] at isUnlock
    cases isUnlock
  · rw [idle] at isSignal
    cases isSignal

end Orderly

/-! ## One client thread -/

/-- The thread has a job to add, and then the lock. -/
def called : System Unit Unit := System.goes .initial () (.addLock () 1)

def locked : System Unit Unit := { called with joblock := some (some ()) }.goes () (.addInsert () 1)

theorem threads_placeOnce_added : ∃ system : System Unit Unit, system.jobs.added = 1 ∧
    EachOnce system.jobs ∧ Defined system ∧ (∀ client, (system.clients client).Inside →
      ¬ system.printer.Inside ∧ ∀ other, (system.clients other).Inside → other = client) := by
  have fresh : (7 : Address) ∉ locked.jobs.memory.heap := Finmap.notMem_empty
  rcases Arranged.initial.addJob fresh () 1 with ⟨jobs, isAdded, _⟩
  have calls : Step .initial called := .calls rfl () 1
  have locks : Step called locked := .client () (.addLock (System.goes_self _ _ _) rfl)
  have inserts : Step locked ({ locked with jobs := jobs }.goes () .addUnlock) :=
    .client () (.addInsert (System.goes_self _ _ _) fresh isAdded)
  refine ⟨_, ?_, threads_placeOnce (((Relation.ReflTransGen.single calls).tail locks).tail inserts)⟩
  exact (added_of_addJob isAdded).1

/-- The printer thread has come first. -/
def waiting : System Unit Unit := { System.initial with printer := .asleep }

theorem threads_stopped_waiting : waiting.printer = .asleep ∧ waiting.jobs.memory.jobhead = none ∧
    ∀ client, waiting.clients client = .idle := by
  have locks : Step (.initial : System Unit Unit) { System.initial with
      joblock := some none, printer := .test } := .printer (.lock (Or.inl rfl) rfl)
  have tests : Step ({ System.initial with joblock := some none, printer := .test } : System Unit Unit)
      { System.initial with joblock := some none, printer := .wait } := .printer (.test rfl)
  have waits : Step ({ System.initial with joblock := some none, printer := .wait } : System Unit Unit)
      waiting := .printer (.wait rfl)
  apply threads_stopped (((Relation.ReflTransGen.single locks).tail tests).tail waits)
  exact ⟨fun client after executed => executed.busy rfl, fun after executed => executed.awake rfl⟩

end Apue.Printer.JobThreads
