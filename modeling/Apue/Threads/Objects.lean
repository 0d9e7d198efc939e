import Apue.Foundation.Always
import Apue.Foundation.AtomicObject
import Apue.Foundation.LinkedHeap

/-! # Objects with reference counts

`threads/mutex2.c` protects the count of an object by the object's own lock, and the
hash chains by `hashlock`; `threads/mutex3.c` has `hashlock` protect both. What is
done to the chains in between two lock operations is one step here.
-/

namespace Apue.Threads

open Apue.Foundation

def NHASH : Nat := 29

/-- `id` is converted to `unsigned long` first. -/
def HASH (id : Int) : Nat := (id % 2 ^ 64).toNat % NHASH

inductive Lock
  | hashlock
  | f_lock (fp : Address)
  deriving DecidableEq

/-- An object without its lock, with a count that does not overflow. -/
structure Foo where
  f_count : Int
  f_id : Int
  f_next : Option Address

/-- The memory that the threads share, with the holders of the locks. -/
structure Memory (Thread : Type) where
  fh : Nat → Option Address
  heap : Heap Foo
  locks : Lock → Option Thread

namespace Memory

variable {Thread : Type} (memory : Memory Thread)

def setHead (idx : Nat) (fp : Option Address) : Memory Thread :=
  { memory with fh := Function.update memory.fh idx fp }

def store (fp : Address) (foo : Foo) : Memory Thread :=
  { memory with heap := memory.heap.insert fp foo }

def free (fp : Address) : Memory Thread := { memory with heap := memory.heap.erase fp }

def setLock (lock : Lock) (holder : Option Thread) : Memory Thread :=
  { memory with locks := Function.update memory.locks lock holder }

/-- Write to an object; `none` is an access outside the heap. -/
def modify (fp : Address) (change : Foo → Foo) : Option (Memory Thread) :=
  (memory.heap.lookup fp).map fun foo => memory.store fp (change foo)

/-- Put an object at the head of a chain. -/
def push (fp : Address) (idx : Nat) : Option (Memory Thread) :=
  (memory.modify fp fun foo => { foo with f_next := memory.fh idx }).map fun linked =>
    linked.setHead idx (some fp)

end Memory

/-- The loop of `foo_find`, with a bound on its rounds. -/
def searchFrom (heap : Heap Foo) (id : Int) : Nat → Option Address → Option (Option Address)
  | _, none => some none
  | 0, some _ => none
  | rounds + 1, some fp => do
      let foo ← heap.lookup fp
      if foo.f_id = id then return some fp else searchFrom heap id rounds foo.f_next

/-- The loop of `foo_rele`, with a bound on its rounds. -/
def previousFrom (heap : Heap Foo) (fp : Address) : Nat → Address → Option Address
  | 0, _ => none
  | rounds + 1, tfp => do
      let foo ← heap.lookup tfp
      if foo.f_next ≠ some fp then previousFrom heap fp rounds (← foo.f_next) else return tfp

namespace Memory

variable {Thread : Type} (memory : Memory Thread)

/-- No chain is longer than there are objects. -/
def search (id : Int) : Option (Option Address) :=
  searchFrom memory.heap id memory.heap.keys.card (memory.fh (HASH id))

/-- Remove an object from its chain. -/
def unlink (fp : Address) : Option (Memory Thread) := do
  let foo ← memory.heap.lookup fp
  let idx := HASH foo.f_id
  let tfp ← memory.fh idx
  if tfp = fp then
    return memory.setHead idx foo.f_next
  else
    let tfp ← previousFrom memory.heap fp memory.heap.keys.card tfp
    memory.modify tfp fun previous => { previous with f_next := foo.f_next }

end Memory

/-! ## The steps of the threads -/

/-- What the threads use the objects for. -/
inductive Operation
  | alloc (id : Int)
  | hold (fp : Address)
  | find (id : Int)
  | rele (fp : Address)

inductive Return
  | pointer (fp : Option Address)
  | void

inductive Command
  | malloc
  | setCount (fp : Address) (count : Int)
  | setId (fp : Address) (id : Int)
  | mutexInit (fp : Address)
  | mutexDestroy (fp : Address)
  | free (fp : Address)
  | lock (lock : Lock)
  | unlock (lock : Lock)
  | getCount (fp : Address)
  | push (fp : Address) (idx : Nat)
  | search (id : Int)
  | unlink (fp : Address)
  | invoke (operation : Operation)
  | respond (result : Return)

@[reducible] def Response : Command → Type
  | .malloc | .search _ => Option Address
  | .mutexInit _ => Bool
  | .getCount _ => Int
  | _ => Unit

structure State (Thread : Type) where
  memory : Memory Thread
  history : List (Event Thread Operation Return)

section Steps

variable {Thread : Type}

/-- What a command may do to the memory. An object that is not allocated cannot be
used, a mutex is locked by one thread, and only that one unlocks it. -/
def MemoryStep (thread : Thread) : (command : Command) → Memory Thread → Response command →
    Memory Thread → Prop
  | .malloc, before, fp, after => fp = none ∧ after = before ∨
      ∃ address foo, fp = some address ∧ before.heap.lookup address = none ∧
        after = before.store address foo
  | .setCount fp count, before, _, after =>
      before.modify fp (fun foo => { foo with f_count := count }) = some after
  | .setId fp id, before, _, after =>
      before.modify fp (fun foo => { foo with f_id := id }) = some after
  | .mutexInit fp, before, initialized, after => before.heap.lookup fp ≠ none ∧
      (initialized = false ∧ after = before ∨
        initialized = true ∧ after = before.setLock (.f_lock fp) none)
  | .mutexDestroy fp, before, _, after => before.heap.lookup fp ≠ none ∧
      before.locks (.f_lock fp) = none ∧ after = before
  | .free fp, before, _, after => before.heap.lookup fp ≠ none ∧ after = before.free fp
  | .lock lock, before, _, after => (∀ fp, lock = .f_lock fp → before.heap.lookup fp ≠ none) ∧
      before.locks lock = none ∧ after = before.setLock lock (some thread)
  | .unlock lock, before, _, after => (∀ fp, lock = .f_lock fp → before.heap.lookup fp ≠ none) ∧
      before.locks lock = some thread ∧ after = before.setLock lock none
  | .getCount fp, before, count, after =>
      (before.heap.lookup fp).map Foo.f_count = some count ∧ after = before
  | .push fp idx, before, _, after => before.push fp idx = some after
  | .search id, before, fp, after => before.search id = some fp ∧ after = before
  | .unlink fp, before, _, after => before.unlink fp = some after
  | .invoke _, before, _, after | .respond _, before, _, after => after = before

def Command.event (thread : Thread) : Command → List (Event Thread Operation Return)
  | .invoke operation => [.invoke thread operation]
  | .respond result => [.respond thread result]
  | _ => []

def Step (thread : Thread) (command : Command) (before : State Thread)
    (response : Response command) (after : State Thread) : Prop :=
  MemoryStep thread command before.memory response after.memory ∧
    after.history = before.history ++ command.event thread

end Steps

abbrev Code : Type → Type := Program Command Response

/-- `foo_alloc` is the same in both files. -/
def foo_alloc (id : Int) : Code (Option Address) := do
  match ← Program.perform Command.malloc with
  | none => return none
  | some fp =>
      Program.perform (Command.setCount fp 1)
      Program.perform (Command.setId fp id)
      let initialized ← Program.perform (Command.mutexInit fp)
      if initialized = false then
        Program.perform (Command.free fp)
        return none
      else
        Program.perform (Command.lock .hashlock)
        Program.perform (Command.push fp (HASH id))
        Program.perform (Command.lock (.f_lock fp))
        Program.perform (Command.unlock .hashlock)
        Program.perform (Command.unlock (.f_lock fp))
        return some fp

namespace Mutex2

def foo_hold (fp : Address) : Code Unit := do
  Program.perform (Command.lock (.f_lock fp))
  let count ← Program.perform (Command.getCount fp)
  Program.perform (Command.setCount fp (count + 1))
  Program.perform (Command.unlock (.f_lock fp))

def foo_find (id : Int) : Code (Option Address) := do
  Program.perform (Command.lock .hashlock)
  match ← Program.perform (Command.search id) with
  | none =>
      Program.perform (Command.unlock .hashlock)
      return none
  | some fp =>
      foo_hold fp
      Program.perform (Command.unlock .hashlock)
      return some fp

def foo_rele (fp : Address) : Code Unit := do
  Program.perform (Command.lock (.f_lock fp))
  let count ← Program.perform (Command.getCount fp)
  if count = 1 then
    Program.perform (Command.unlock (.f_lock fp))
    Program.perform (Command.lock .hashlock)
    Program.perform (Command.lock (.f_lock fp))
    let count ← Program.perform (Command.getCount fp)
    if count ≠ 1 then
      Program.perform (Command.setCount fp (count - 1))
      Program.perform (Command.unlock (.f_lock fp))
      Program.perform (Command.unlock .hashlock)
    else
      Program.perform (Command.unlink fp)
      Program.perform (Command.unlock .hashlock)
      Program.perform (Command.unlock (.f_lock fp))
      Program.perform (Command.mutexDestroy fp)
      Program.perform (Command.free fp)
  else
    Program.perform (Command.setCount fp (count - 1))
    Program.perform (Command.unlock (.f_lock fp))

def code : Operation → Code Return
  | .alloc id => Return.pointer <$> foo_alloc id
  | .hold fp => (fun _ => .void) <$> foo_hold fp
  | .find id => Return.pointer <$> foo_find id
  | .rele fp => (fun _ => .void) <$> foo_rele fp

end Mutex2

namespace Mutex3

def foo_hold (fp : Address) : Code Unit := do
  Program.perform (Command.lock .hashlock)
  let count ← Program.perform (Command.getCount fp)
  Program.perform (Command.setCount fp (count + 1))
  Program.perform (Command.unlock .hashlock)

def foo_find (id : Int) : Code (Option Address) := do
  Program.perform (Command.lock .hashlock)
  match ← Program.perform (Command.search id) with
  | none =>
      Program.perform (Command.unlock .hashlock)
      return none
  | some fp =>
      let count ← Program.perform (Command.getCount fp)
      Program.perform (Command.setCount fp (count + 1))
      Program.perform (Command.unlock .hashlock)
      return some fp

def foo_rele (fp : Address) : Code Unit := do
  Program.perform (Command.lock .hashlock)
  let count ← Program.perform (Command.getCount fp)
  Program.perform (Command.setCount fp (count - 1))
  if count - 1 = 0 then
    Program.perform (Command.unlink fp)
    Program.perform (Command.unlock .hashlock)
    Program.perform (Command.mutexDestroy fp)
    Program.perform (Command.free fp)
  else
    Program.perform (Command.unlock .hashlock)

def code : Operation → Code Return
  | .alloc id => Return.pointer <$> foo_alloc id
  | .hold fp => (fun _ => .void) <$> foo_hold fp
  | .find id => Return.pointer <$> foo_find id
  | .rele fp => (fun _ => .void) <$> foo_rele fp

end Mutex3

/-! ## Threads that use objects -/

/-- What a thread does with the objects may depend on what it has got. -/
abbrev Client : Type := Program Operation (fun _ => Return) Unit

/-- How many references a thread owns to each object. -/
abbrev References : Type := Address → Nat

def References.change (owned : References) : Operation → Return → References
  | .alloc _, .pointer (some fp) | .find _, .pointer (some fp) | .hold fp, _ =>
      Function.update owned fp (owned fp + 1)
  | .rele fp, _ => Function.update owned fp (owned fp - 1)
  | _, _ => owned

def Operation.Permitted (owned : References) : Operation → Prop
  | .hold fp | .rele fp => 0 < owned fp
  | .alloc _ | .find _ => True

/-- The thread holds and releases only what it owns. -/
def Client.Careful : Client → References → Prop
  | .done _, _ => True
  | .call operation next, owned => operation.Permitted owned ∧
      ∀ result, Client.Careful (next result) (owned.change operation result)

/-- The thread calls the functions of `mutex2.c`. -/
def Client.run : Client → Code Unit
  | .done _ => return ()
  | .call operation next => do
      Program.perform (Command.invoke operation)
      let result ← Mutex2.code operation
      Program.perform (Command.respond result)
      Client.run (next result)

def emptyMemory (Thread : Type) : Memory Thread where
  fh := fun _ => none
  heap := ∅
  locks := fun _ => none

def start {Thread : Type} (clients : Thread → Client) :
    Pool Thread Command Response (State Thread) Unit where
  programs := fun thread => (clients thread).run
  state := { memory := emptyMemory Thread, history := [] }

/-! ## Operations in one step -/

/-- The memory of `mutex3.c` between its operations, and the references of the
threads. -/
structure Object (Thread : Type) where
  memory : Memory Thread
  owned : Thread → References

/-- The whole operation of `mutex3.c`. -/
def Effect {Thread : Type} [DecidableEq Thread] (thread : Thread) (operation : Operation)
    (before : Object Thread) (result : Return) (after : Object Thread) : Prop :=
  Program.Runs (Step thread) (Mutex3.code operation) ⟨before.memory, []⟩ result
      ⟨after.memory, []⟩ ∧
    after.owned = Function.update before.owned thread
      ((before.owned thread).change operation result)

end Apue.Threads
