import Apue.Foundation.LocalReasoning
import Apue.Threads.AtomicReferences

/-! # Threads that lock the objects

While `mutex2.c` runs, the chains and the objects on them are those of a run of
`mutex3.c` in single steps. Besides, a thread may have an object of its own: one that
is not on its chain yet, or one that it has taken off.
-/

namespace Apue.Threads

open Apue.Foundation

/-- What a thread has in hand. -/
inductive Point
  | resting
  /-- An object of its own. -/
  | building (fp : Address) (foo : Foo)
  | pushing (fp : Address) (foo : Foo)
  | hashing
  /-- `hashlock`, and what it has found for an id. -/
  | found (id : Int) (fp : Address)
  /-- Both locks, and what it has read of the count. -/
  | both (fp : Address) (id : Option Int) (count : Option Int)
  | holding (fp : Address) (count : Option Int)
  /-- Both locks of an object that it has taken off its chain. -/
  | cutting (fp : Address) (foo : Foo)
  | leaving (fp : Address) (foo : Foo)

namespace Point

def Holds : Point → Lock → Prop
  | .resting, _ | .building _ _, _ => False
  | .pushing _ _, lock | .hashing, lock | .found _ _, lock => lock = .hashlock
  | .both fp _ _, lock | .cutting fp _, lock => lock = .hashlock ∨ lock = .f_lock fp
  | .holding fp _, lock | .leaving fp _, lock => lock = .f_lock fp

/-- The object of its own. -/
def mine : Point → Option (Address × Foo)
  | .building fp foo | .pushing fp foo | .cutting fp foo | .leaving fp foo => some (fp, foo)
  | _ => none

def counted : Point → Option (Address × Int)
  | .both fp _ (some count) | .holding fp (some count) => some (fp, count)
  | _ => none

def searched : Point → Option (Int × Address)
  | .found id fp | .both fp (some id) _ => some (id, fp)
  | _ => none

theorem holds_of_counted {point : Point} {fp : Address} {count : Int}
    (counted : point.counted = some (fp, count)) : point.Holds (.f_lock fp) := by
  cases point with
  | both _ _ known =>
      cases known with
      | none => cases counted
      | some known =>
          cases counted
          exact Or.inr rfl
  | holding _ known =>
      cases known with
      | none => cases counted
      | some known =>
          cases counted
          exact rfl
  | resting | building | pushing | hashing | found | cutting | leaving => cases counted

theorem holds_of_searched {point : Point} {id : Int} {fp : Address}
    (searched : point.searched = some (id, fp)) : point.Holds .hashlock := by
  cases point with
  | found => exact rfl
  | both => exact Or.inl rfl
  | resting | building | pushing | hashing | holding | cutting | leaving => cases searched

end Point

variable {Thread : Type}

/-- What a thread can rely on. -/
structure Stands (object : Object Thread) (memory : Memory Thread) (point : Point) : Prop where
  own : ∀ fp foo, point.mine = some (fp, foo) →
    memory.heap.lookup fp = some foo ∧ object.memory.heap.lookup fp = none
  locked : ∀ fp, point.Holds (.f_lock fp) →
    object.memory.heap.lookup fp ≠ none ∨ ∃ foo, point.mine = some (fp, foo)
  counted : ∀ fp count, point.counted = some (fp, count) →
    (object.memory.heap.lookup fp).map Foo.f_count = some count
  searched : ∀ id fp, point.searched = some (id, fp) → object.memory.search id = some (some fp)

theorem Stands.heap_eq {object : Object Thread} {memory after : Memory Thread} {point : Point}
    (stands : Stands object memory point) (heap : after.heap = memory.heap) :
    Stands object after point where
  own := by
    rw [heap]
    exact stands.own
  locked := stands.locked
  counted := stands.counted
  searched := stands.searched

/-- Where the threads are, and the run of `mutex3.c`. -/
structure Ghost (Thread : Type) where
  points : Thread → Point
  atomic : AtomicObject Thread (Object Thread) Operation Return

def emptyObject (Thread : Type) : Object Thread where
  memory := emptyMemory Thread
  owned := fun _ _ => 0

section Valid

variable [DecidableEq Thread] [Fintype Thread]

structure Valid (ghost : Ghost Thread) (state : State Thread) : Prop where
  explains : AtomicObject.Explains Effect (AtomicObject.start (emptyObject Thread)) ghost.atomic
    state.history
  sound : Sound ghost.atomic.object
  locks : ∀ lock thread, state.memory.locks lock = some thread ↔ (ghost.points thread).Holds lock
  heads : state.memory.fh = ghost.atomic.object.memory.fh
  linked : ∀ fp foo, ghost.atomic.object.memory.heap.lookup fp = some foo →
    state.memory.heap.lookup fp = some foo
  stands : ∀ thread, Stands ghost.atomic.object state.memory (ghost.points thread)
  apart : ∀ thread other fp foo foo', (ghost.points thread).mine = some (fp, foo) →
    (ghost.points other).mine = some (fp, foo') → thread = other
  rest : ∀ fp foo, state.memory.heap.lookup fp = some foo →
    ghost.atomic.object.memory.heap.lookup fp = some foo ∨
      ∃ thread, (ghost.points thread).mine = some (fp, foo)

variable {ghost : Ghost Thread} {state : State Thread} {thread : Thread} {point : Point}
  {memory : Memory Thread} {fp : Address} {foo : Foo}

/-- Two threads do not hold one lock. -/
theorem Valid.exclusive (valid : Valid ghost state) {lock : Lock} {other : Thread}
    (mine : (ghost.points thread).Holds lock) (others : (ghost.points other).Holds lock) :
    other = thread := by
  have left := (valid.locks lock thread).mpr mine
  have right := (valid.locks lock other).mpr others
  rw [left] at right
  exact (Option.some.inj right).symm

/-- A step of one thread that the other threads do not see. -/
theorem Valid.step (valid : Valid ghost state) {atomic : AtomicObject Thread (Object Thread) Operation Return}
    {after : State Thread}
    (explains : AtomicObject.Explains Effect (AtomicObject.start (emptyObject Thread)) atomic
      after.history)
    (sound : Sound atomic.object)
    (locks : ∀ lock other, after.memory.locks lock = some other ↔
      (Function.update ghost.points thread point other).Holds lock)
    (heads : after.memory.fh = atomic.object.memory.fh)
    (linked : ∀ fp foo, atomic.object.memory.heap.lookup fp = some foo →
      after.memory.heap.lookup fp = some foo)
    (stands : Stands atomic.object after.memory point)
    (others : ∀ other, other ≠ thread → Stands atomic.object after.memory (ghost.points other))
    (apart : ∀ fp foo, point.mine = some (fp, foo) → ∀ other, other ≠ thread →
      ∀ foo', (ghost.points other).mine ≠ some (fp, foo'))
    (rest : ∀ fp foo, after.memory.heap.lookup fp = some foo →
      atomic.object.memory.heap.lookup fp = some foo ∨ point.mine = some (fp, foo) ∨
        ∃ other, other ≠ thread ∧ (ghost.points other).mine = some (fp, foo)) :
    Valid ⟨Function.update ghost.points thread point, atomic⟩ after where
  explains := explains
  sound := sound
  locks := locks
  heads := heads
  linked := linked
  stands := by
    intro other
    dsimp only
    by_cases same : other = thread
    · subst same
      rw [Function.update_self]
      exact stands
    · rw [Function.update_of_ne same]
      exact others other same
  apart := by
    intro left right fp foo foo' isLeft isRight
    dsimp only at isLeft isRight
    by_cases mine : left = thread
    · subst mine
      rw [Function.update_self] at isLeft
      by_contra different
      rw [Function.update_of_ne (Ne.symm different)] at isRight
      exact apart fp foo isLeft right (Ne.symm different) foo' isRight
    · rw [Function.update_of_ne mine] at isLeft
      by_cases yours : right = thread
      · subst yours
        rw [Function.update_self] at isRight
        exact absurd isLeft (apart fp foo' isRight left mine foo)
      · rw [Function.update_of_ne yours] at isRight
        exact valid.apart left right fp foo foo' isLeft isRight
  rest := by
    intro fp foo found
    rcases rest fp foo found with isLinked | isMine | ⟨other, different, isOthers⟩
    · exact Or.inl isLinked
    · refine Or.inr ⟨thread, ?_⟩
      dsimp only
      rw [Function.update_self]
      exact isMine
    · refine Or.inr ⟨other, ?_⟩
      dsimp only
      rw [Function.update_of_ne different]
      exact isOthers

/-! ## Steps that `mutex3.c` does not take -/

theorem locks_acquire (valid : Valid ghost state) {lock : Lock} (free : state.memory.locks lock = none)
    (holds : ∀ other, point.Holds other ↔ (ghost.points thread).Holds other ∨ other = lock) :
    ∀ other holder, (state.memory.setLock lock (some thread)).locks other = some holder ↔
      (Function.update ghost.points thread point holder).Holds other := by
  intro other holder
  by_cases isThread : holder = thread
  · subst isThread
    rw [Function.update_self, holds]
    by_cases same : other = lock
    · rw [same, locks_setLock]
      exact ⟨fun _ => Or.inr rfl, fun _ => rfl⟩
    · rw [locks_setLock_of_ne same, valid.locks]
      exact ⟨Or.inl, fun either => either.resolve_right same⟩
  · rw [Function.update_of_ne isThread]
    by_cases same : other = lock
    · rw [same, locks_setLock, ← valid.locks, free]
      exact ⟨fun mine => absurd (Option.some.inj mine).symm isThread, nofun⟩
    · rw [locks_setLock_of_ne same, valid.locks]

theorem locks_release (valid : Valid ghost state) {lock : Lock}
    (mine : (ghost.points thread).Holds lock)
    (holds : ∀ other, point.Holds other ↔ (ghost.points thread).Holds other ∧ other ≠ lock) :
    ∀ other holder, (state.memory.setLock lock none).locks other = some holder ↔
      (Function.update ghost.points thread point holder).Holds other := by
  intro other holder
  by_cases isThread : holder = thread
  · subst isThread
    rw [Function.update_self, holds]
    by_cases same : other = lock
    · rw [same, locks_setLock]
      exact ⟨nofun, fun both => absurd rfl both.2⟩
    · rw [locks_setLock_of_ne same, valid.locks]
      exact ⟨fun held => ⟨held, same⟩, fun both => both.1⟩
  · rw [Function.update_of_ne isThread]
    by_cases same : other = lock
    · rw [same, locks_setLock]
      exact ⟨nofun, fun others => absurd (valid.exclusive mine others) isThread⟩
    · rw [locks_setLock_of_ne same, valid.locks]

theorem locks_keep (valid : Valid ghost state)
    (holds : ∀ lock, point.Holds lock ↔ (ghost.points thread).Holds lock) :
    ∀ lock holder, state.memory.locks lock = some holder ↔
      (Function.update ghost.points thread point holder).Holds lock := by
  intro lock holder
  rw [valid.locks]
  by_cases isThread : holder = thread
  · subst isThread
    rw [Function.update_self, holds]
  · rw [Function.update_of_ne isThread]

/-- A step that leaves the chains and the objects as they are. -/
theorem Valid.quiet (valid : Valid ghost state)
    {atomic : AtomicObject Thread (Object Thread) Operation Return} {after : State Thread}
    (same : atomic.object = ghost.atomic.object)
    (explains : AtomicObject.Explains Effect (AtomicObject.start (emptyObject Thread)) atomic
      after.history)
    (heap : after.memory.heap = state.memory.heap) (heads : after.memory.fh = state.memory.fh)
    (locks : ∀ lock holder, after.memory.locks lock = some holder ↔
      (Function.update ghost.points thread point holder).Holds lock)
    (mine : point.mine = (ghost.points thread).mine)
    (locked : ∀ fp, point.Holds (.f_lock fp) →
      ghost.atomic.object.memory.heap.lookup fp ≠ none ∨ ∃ foo, point.mine = some (fp, foo))
    (counted : ∀ fp count, point.counted = some (fp, count) →
      (ghost.atomic.object.memory.heap.lookup fp).map Foo.f_count = some count)
    (searched : ∀ id fp, point.searched = some (id, fp) →
      ghost.atomic.object.memory.search id = some (some fp)) :
    Valid ⟨Function.update ghost.points thread point, atomic⟩ after := by
  apply valid.step explains
  · rw [same]
    exact valid.sound
  · exact locks
  · rw [heads, same]
    exact valid.heads
  · rw [heap, same]
    exact valid.linked
  · rw [same]
    refine ⟨fun fp foo isMine => ?_, locked, counted, searched⟩
    rw [heap]
    exact (valid.stands thread).own fp foo (mine ▸ isMine)
  · intro other _
    rw [same]
    exact (valid.stands other).heap_eq heap
  · intro fp foo isMine other different foo' isOthers
    exact different (valid.apart other thread fp foo' foo isOthers (mine ▸ isMine))
  · intro fp foo found
    rw [heap] at found
    rw [same]
    rcases valid.rest fp foo found with isLinked | ⟨holder, isHolders⟩
    · exact Or.inl isLinked
    · by_cases isThread : holder = thread
      · rw [isThread] at isHolders
        exact Or.inr (Or.inl (mine.trans isHolders))
      · exact Or.inr (Or.inr ⟨holder, isThread, isHolders⟩)

/-- A step at an object that no other thread can see. -/
theorem Valid.own (valid : Valid ghost state) {after : State Thread}
    (history : after.history = state.history)
    (unlinked : ghost.atomic.object.memory.heap.lookup fp = none)
    (others : ∀ other, other ≠ thread → ∀ foo, (ghost.points other).mine ≠ some (fp, foo))
    (heap : ∀ other, other ≠ fp → after.memory.heap.lookup other = state.memory.heap.lookup other)
    (heads : after.memory.fh = state.memory.fh) (locks : after.memory.locks = state.memory.locks)
    (holds : ∀ lock, point.Holds lock ↔ (ghost.points thread).Holds lock)
    (free : ∀ fp, ¬ point.Holds (.f_lock fp))
    (before : ∀ other foo, (ghost.points thread).mine = some (other, foo) → other = fp)
    (isMine : point.mine = (after.memory.heap.lookup fp).map fun foo => (fp, foo))
    (uncounted : point.counted = none) (unsearched : point.searched = none) :
    Valid ⟨Function.update ghost.points thread point, ghost.atomic⟩ after := by
  apply valid.step
  · rw [history]
    exact valid.explains
  · exact valid.sound
  · rw [locks]
    exact locks_keep valid holds
  · rw [heads]
    exact valid.heads
  · intro other foo found
    rw [heap other]
    · exact valid.linked other foo found
    · intro same
      rw [same, unlinked] at found
      cases found
  · refine ⟨fun other foo own => ?_, fun other held => absurd held (free other), ?_, ?_⟩
    · rw [isMine] at own
      rcases Option.map_eq_some_iff.mp own with ⟨_, found, equal⟩
      cases equal
      exact ⟨found, unlinked⟩
    · rw [uncounted]
      exact nofun
    · rw [unsearched]
      exact nofun
  · intro other different
    have stands := valid.stands other
    refine ⟨fun address foo own => ?_, stands.locked, stands.counted, stands.searched⟩
    rw [heap address]
    · exact stands.own address foo own
    · intro same
      rw [same] at own
      exact others other different foo own
  · intro other foo own holder different foo' isHolders
    rw [isMine] at own
    rcases Option.map_eq_some_iff.mp own with ⟨_, _, equal⟩
    cases equal
    exact others holder different foo' isHolders
  · intro other foo found
    by_cases same : other = fp
    · rw [same] at found ⊢
      rw [found] at isMine
      exact Or.inr (Or.inl isMine)
    · rw [heap other same] at found
      rcases valid.rest other foo found with isLinked | ⟨holder, isHolders⟩
      · exact Or.inl isLinked
      · by_cases isThread : holder = thread
        · rw [isThread] at isHolders
          exact absurd (before other foo isHolders) same
        · exact Or.inr (Or.inr ⟨holder, isThread, isHolders⟩)

/-! ## Steps that `mutex3.c` takes -/

section Moves

variable {operation : Operation} {result : Return}

/-- An operation of `mutex3.c` takes effect. -/
def Ghost.effected (ghost : Ghost Thread) (thread : Thread) (object : Object Thread)
    (result : Return) : AtomicObject Thread (Object Thread) Operation Return where
  object := object
  pending := Function.update ghost.atomic.pending thread (.effected result)

theorem Valid.effected (valid : Valid ghost state) {object : Object Thread}
    (called : ghost.atomic.pending thread = .called operation)
    (effect : Effect thread operation ghost.atomic.object result object) :
    AtomicObject.Explains Effect (AtomicObject.start (emptyObject Thread))
      (ghost.effected thread object result) state.history := by
  have moved := valid.explains.snoc (.effect called effect)
  rw [Action.visible, Option.toList_none, List.append_nil] at moved
  exact moved

/-- A new object is put on its chain. -/
theorem Valid.push (valid : Valid ghost state) {id : Int} {next : Option Address}
    {after : State Thread}
    (isPoint : ghost.points thread = .pushing fp ⟨1, id, next⟩)
    (called : ghost.atomic.pending thread = .called (.alloc id))
    (stepped : Step thread (.push fp (HASH id)) state () after) :
    Valid ⟨Function.update ghost.points thread .hashing,
      ghost.effected thread (ghost.atomic.object.allocated thread id fp) (.pointer (some fp))⟩ after := by
  have isMine : (ghost.points thread).mine = some (fp, ⟨1, id, next⟩) := by
    rw [isPoint]
    rfl
  have own := (valid.stands thread).own fp _ isMine
  have pushes : state.memory.push fp (HASH id) = some after.memory := stepped.1
  rw [push_eq own.1] at pushes
  have isAfter := (Option.some.inj pushes).symm
  have history : after.history = state.history := stepped.2.trans (List.append_nil _)
  have lookups (other : Address) (different : other ≠ fp) :
      after.memory.heap.lookup other = state.memory.heap.lookup other := by
    rw [isAfter]
    exact Finmap.lookup_insert_of_ne _ different
  have lookupsObject (other : Address) (different : other ≠ fp) :
      (ghost.atomic.object.allocated thread id fp).memory.heap.lookup other =
        ghost.atomic.object.memory.heap.lookup other :=
    Finmap.lookup_insert_of_ne _ different
  have newLookup : (ghost.atomic.object.allocated thread id fp).memory.heap.lookup fp =
      some ⟨1, id, ghost.atomic.object.memory.fh (HASH id)⟩ := Finmap.lookup_insert _
  have afterLookup : after.memory.heap.lookup fp =
      some ⟨1, id, ghost.atomic.object.memory.fh (HASH id)⟩ := by
    rw [isAfter, ← valid.heads]
    exact Finmap.lookup_insert _
  have notMine (other : Thread) (different : other ≠ thread) (foo : Foo) :
      (ghost.points other).mine ≠ some (fp, foo) := fun others =>
    different (valid.apart other thread fp foo _ others isMine)
  apply valid.step
  · rw [history]
    exact valid.effected called (effect_alloc valid.sound.unlocked own.2)
  · exact valid.sound.allocated own.2 id
  · rw [isAfter]
    apply locks_keep valid
    intro lock
    rw [isPoint]
    rfl
  · rw [isAfter]
    change Function.update state.memory.fh _ _ = Function.update ghost.atomic.object.memory.fh _ _
    rw [valid.heads]
  · intro other cell found
    by_cases same : other = fp
    · rw [same] at found ⊢
      exact afterLookup.trans (newLookup.symm.trans found)
    · rw [lookups other same]
      exact valid.linked other cell ((lookupsObject other same).symm.trans found)
  · exact ⟨nofun, fun _ held => absurd held f_lock_ne_hashlock, nofun, nofun⟩
  · intro other different
    have stands := valid.stands other
    constructor
    · intro address cell isOthers
      have apart : address ≠ fp := by
        intro same
        rw [same] at isOthers
        exact notMine other different cell isOthers
      rw [lookups address apart]
      have old := stands.own address cell isOthers
      exact ⟨old.1, (lookupsObject address apart).trans old.2⟩
    · intro address held
      refine (stands.locked address held).imp_left fun present => ?_
      by_cases same : address = fp
      · rw [same]
        exact fun absent => Option.some_ne_none _ (newLookup.symm.trans absent)
      · exact fun absent => present ((lookupsObject address same).symm.trans absent)
    · intro address count isCounted
      have old := stands.counted address count isCounted
      have apart : address ≠ fp := by
        intro same
        rw [same, own.2] at old
        cases old
      refine Eq.trans ?_ old
      exact congrArg (Option.map Foo.f_count) (lookupsObject address apart)
    · intro id' address isSearched
      -- Nobody else can have searched, for this thread holds `hashlock`.
      have mine : (ghost.points thread).Holds .hashlock := by
        rw [isPoint]
        exact rfl
      exact absurd (valid.exclusive mine (Point.holds_of_searched isSearched)) different
  · exact nofun
  · intro other cell found
    by_cases same : other = fp
    · rw [same] at found ⊢
      exact Or.inl (newLookup.trans (afterLookup.symm.trans found))
    · rw [lookups other same] at found
      rcases valid.rest other cell found with isLinked | ⟨holder, isHolders⟩
      · exact Or.inl ((lookupsObject other same).trans isLinked)
      · refine Or.inr (Or.inr ⟨holder, ?_, isHolders⟩)
        intro isThread
        rw [isThread, isMine] at isHolders
        cases isHolders
        exact same rfl

/-- The count of an object is changed under its lock. -/
theorem Valid.recount (valid : Valid ghost state) {count : Int} {after : State Thread}
    (found : ghost.atomic.object.memory.heap.lookup fp = some foo)
    (held : (ghost.points thread).Holds (.f_lock fp)) (noMine : (ghost.points thread).mine = none)
    (called : ghost.atomic.pending thread = .called operation)
    (effect : Effect thread operation ghost.atomic.object result
      (ghost.atomic.object.recounted thread operation result fp foo count))
    (sound : Sound (ghost.atomic.object.recounted thread operation result fp foo count))
    (stepped : Step thread (.setCount fp count) state () after)
    (holds : ∀ lock, point.Holds lock ↔ (ghost.points thread).Holds lock) (mine : point.mine = none)
    (uncounted : point.counted = none)
    (searched : ∀ id fp, point.searched = some (id, fp) → (ghost.points thread).searched = some (id, fp)) :
    Valid ⟨Function.update ghost.points thread point,
      ghost.effected thread (ghost.atomic.object.recounted thread operation result fp foo count) result⟩
      after := by
  have isLinked := valid.linked fp foo found
  have writes : state.memory.modify fp (fun foo => { foo with f_count := count }) =
      some after.memory := stepped.1
  rw [modify_eq isLinked] at writes
  have isAfter := (Option.some.inj writes).symm
  have history : after.history = state.history := stepped.2.trans (List.append_nil _)
  have lookups (other : Address) (different : other ≠ fp) :
      after.memory.heap.lookup other = state.memory.heap.lookup other := by
    rw [isAfter]
    exact Finmap.lookup_insert_of_ne _ different
  have lookupsObject (other : Address) (different : other ≠ fp) :
      (ghost.atomic.object.recounted thread operation result fp foo count).memory.heap.lookup other =
        ghost.atomic.object.memory.heap.lookup other :=
    Finmap.lookup_insert_of_ne _ different
  have newLookup : (ghost.atomic.object.recounted thread operation result fp foo
      count).memory.heap.lookup fp = some { foo with f_count := count } := Finmap.lookup_insert _
  have afterLookup : after.memory.heap.lookup fp = some { foo with f_count := count } := by
    rw [isAfter]
    exact Finmap.lookup_insert _
  have present (address : Address) (old : ghost.atomic.object.memory.heap.lookup address ≠ none) :
      (ghost.atomic.object.recounted thread operation result fp foo
        count).memory.heap.lookup address ≠ none := by
    by_cases same : address = fp
    · rw [same]
      exact fun absent => Option.some_ne_none _ (newLookup.symm.trans absent)
    · exact fun absent => old ((lookupsObject address same).symm.trans absent)
  have search (id : Int) : (ghost.atomic.object.recounted thread operation result fp foo
      count).memory.search id = ghost.atomic.object.memory.search id := by
    rcases valid.sound.chained with ⟨chains, chained⟩
    exact chained.search_recount found count id
  apply valid.step
  · rw [history]
    exact valid.effected called effect
  · exact sound
  · rw [isAfter]
    exact locks_keep valid holds
  · rw [isAfter]
    exact valid.heads
  · intro other cell isCell
    by_cases same : other = fp
    · rw [same] at isCell ⊢
      exact afterLookup.trans (newLookup.symm.trans isCell)
    · rw [lookups other same]
      exact valid.linked other cell ((lookupsObject other same).symm.trans isCell)
  · constructor
    · rw [mine]
      exact nofun
    · intro address holdsIt
      rcases (valid.stands thread).locked address ((holds _).mp holdsIt) with old | ⟨_, isMine⟩
      · exact Or.inl (present address old)
      · rw [noMine] at isMine
        cases isMine
    · rw [uncounted]
      exact nofun
    · intro id address isSearched
      exact (search id).trans ((valid.stands thread).searched id address (searched id address isSearched))
  · intro other different
    have stands := valid.stands other
    constructor
    · intro address cell isOthers
      have old := stands.own address cell isOthers
      have apart : address ≠ fp := by
        intro same
        rw [same, found] at old
        cases old.2
      rw [lookups address apart]
      exact ⟨old.1, (lookupsObject address apart).trans old.2⟩
    · exact fun address held => (stands.locked address held).imp_left (present address)
    · intro address count' isCounted
      have apart : address ≠ fp := by
        intro same
        have others := Point.holds_of_counted isCounted
        rw [same] at others
        exact different (valid.exclusive held others)
      refine Eq.trans ?_ (stands.counted address count' isCounted)
      exact congrArg (Option.map Foo.f_count) (lookupsObject address apart)
    · exact fun id address isSearched => (search id).trans (stands.searched id address isSearched)
  · rw [mine]
    exact nofun
  · intro other cell isCell
    by_cases same : other = fp
    · rw [same] at isCell ⊢
      exact Or.inl (newLookup.trans (afterLookup.symm.trans isCell))
    · rw [lookups other same] at isCell
      rcases valid.rest other cell isCell with isLinked | ⟨holder, isHolders⟩
      · exact Or.inl ((lookupsObject other same).trans isLinked)
      · refine Or.inr (Or.inr ⟨holder, ?_, isHolders⟩)
        intro isThread
        rw [isThread, noMine] at isHolders
        cases isHolders

/-- The last reference is released, and the object taken off its chain. -/
theorem Valid.unlink (valid : Valid ghost state) {after : State Thread} {id : Option Int}
    (isPoint : ghost.points thread = .both fp id (some 1))
    (found : ghost.atomic.object.memory.heap.lookup fp = some foo) (last : foo.f_count = 1)
    (owns : 0 < ghost.atomic.object.owned thread fp)
    (called : ghost.atomic.pending thread = .called (.rele fp))
    (stepped : Step thread (.unlink fp) state () after) :
    ∃ before, Valid ⟨Function.update ghost.points thread (.cutting fp foo),
      ghost.effected thread (ghost.atomic.object.removed thread fp foo before) .void⟩ after := by
  rcases valid.sound.chained with ⟨chains, chained⟩
  rcases List.append_of_mem (chained.every fp foo found) with ⟨before, behind, split⟩
  have path := chained.path (HASH foo.f_id)
  rw [split] at path
  have distinct := path.nodup
  have isLinked := valid.linked fp foo found
  have statePath : state.memory.heap.Path Foo.f_next (state.memory.fh (HASH foo.f_id))
      (before ++ fp :: behind) := by
    rw [valid.heads]
    apply path.of_same_next
    exact fun address _ cell isCell => ⟨cell, valid.linked address cell isCell, rfl⟩
  have cuts : state.memory.unlink fp = some after.memory := stepped.1
  rw [unlink_eq isLinked statePath] at cuts
  have isAfter := (Option.some.inj cuts).symm
  have history : after.history = state.history := stepped.2.trans (List.append_nil _)
  have lastLinked (address : Address) (isLast : before.getLast? = some address) :
      address ≠ fp ∧ ghost.atomic.object.memory.heap.lookup address ≠ none := by
    have member := List.mem_of_getLast? isLast
    constructor
    · intro same
      rw [same] at member
      exact (List.nodup_middle.mp distinct).notMem (List.mem_append_left _ member)
    · have present := Finmap.lookup_isSome.mpr (path.mem_keys address (List.mem_append_left _ member))
      exact Option.isSome_iff_ne_none.mp present
  have lookups (address : Address) : after.memory.heap.lookup address =
      (state.memory.heap.lookup address).map fun cell => { cell with
        f_next := if before.getLast? = some address then foo.f_next else cell.f_next } := by
    rw [isAfter, cutOut_lookup]
  have unseen (address : Address) (cell : Foo) (isCell : state.memory.heap.lookup address = some cell)
      (notLast : before.getLast? ≠ some address) : after.memory.heap.lookup address = some cell := by
    rw [lookups, isCell, Option.map_some, if_neg notLast]
  have lookupsObject (address : Address) (different : address ≠ fp) :
      (ghost.atomic.object.removed thread fp foo before).memory.heap.lookup address =
        (ghost.atomic.object.memory.heap.lookup address).map fun cell => { cell with
          f_next := if before.getLast? = some address then foo.f_next else cell.f_next } := by
    change Finmap.lookup address (Finmap.erase fp (cutOut ghost.atomic.object.memory _ _ _).heap) = _
    rw [Finmap.lookup_erase_ne different, cutOut_lookup]
  have gone : (ghost.atomic.object.removed thread fp foo before).memory.heap.lookup fp = none :=
    Finmap.lookup_erase _ _
  refine ⟨before, ?_⟩
  have mine : (ghost.points thread).Holds .hashlock := by
    rw [isPoint]
    exact Or.inl rfl
  have mineToo : (ghost.points thread).Holds (.f_lock fp) := by
    rw [isPoint]
    exact Or.inr rfl
  apply valid.step
  · rw [history]
    exact valid.effected called (effect_last valid.sound.unlocked found last path)
  · exact valid.sound.removed found owns last chained split
  · rw [isAfter, cutOut_locks]
    apply locks_keep valid
    intro lock
    rw [isPoint]
    rfl
  · rw [isAfter]
    change _ = (cutOut ghost.atomic.object.memory _ _ _).fh
    rw [cutOut_fh, cutOut_fh, valid.heads]
  · intro address cell isCell
    have different : address ≠ fp := by
      intro same
      rw [same] at isCell
      exact Option.some_ne_none cell (isCell.symm.trans gone)
    have isCell := (lookupsObject address different).symm.trans isCell
    rcases Option.map_eq_some_iff.mp isCell with ⟨old, isOld, rfl⟩
    rw [lookups, valid.linked address old isOld]
    rfl
  · constructor
    · intro address cell isMine
      cases isMine
      exact ⟨unseen fp foo isLinked fun isLast => (lastLinked fp isLast).1 rfl, gone⟩
    · intro address held
      rcases held with hash | same
      · exact absurd hash f_lock_ne_hashlock
      · cases same
        exact Or.inr ⟨foo, rfl⟩
    · exact nofun
    · exact nofun
  · intro other different
    have stands := valid.stands other
    have apart (address : Address) (held : (ghost.points other).Holds (.f_lock address)) :
        address ≠ fp := by
      intro same
      rw [same] at held
      exact different (valid.exclusive mineToo held)
    have map (address : Address) (cell : Foo)
        (isCell : ghost.atomic.object.memory.heap.lookup address = some cell) (notThis : address ≠ fp) :
        ∃ cell', (ghost.atomic.object.removed thread fp foo before).memory.heap.lookup address =
          some cell' ∧ cell'.f_count = cell.f_count := by
      refine ⟨_, (lookupsObject address notThis).trans (congrArg (Option.map _) isCell), rfl⟩
    constructor
    · intro address cell isOthers
      have old := stands.own address cell isOthers
      have notThis : address ≠ fp := by
        intro same
        rw [same, found] at old
        cases old.2
      constructor
      · exact unseen address cell old.1 fun isLast => (lastLinked address isLast).2 old.2
      · exact (lookupsObject address notThis).trans (congrArg (Option.map _) old.2)
    · intro address held
      refine (stands.locked address held).imp_left fun present => ?_
      rcases Option.ne_none_iff_exists'.mp present with ⟨cell, isCell⟩
      rcases map address cell isCell (apart address held) with ⟨cell', isCell', _⟩
      exact fun absent => Option.some_ne_none cell' (isCell'.symm.trans absent)
    · intro address count isCounted
      have old := stands.counted address count isCounted
      rcases Option.map_eq_some_iff.mp old with ⟨cell, isCell, isCount⟩
      rcases map address cell isCell (apart address (Point.holds_of_counted isCounted)) with
        ⟨cell', isCell', sameCount⟩
      refine (congrArg (Option.map Foo.f_count) isCell').trans ?_
      rw [Option.map_some, sameCount, isCount]
    · intro id' address isSearched
      exact absurd (valid.exclusive mine (Point.holds_of_searched isSearched)) different
  · intro address cell isMine other different cell' isOthers
    cases isMine
    have old := (valid.stands other).own fp cell' isOthers
    rw [found] at old
    cases old.2
  · intro address cell isCell
    by_cases same : address = fp
    · rw [same, unseen fp foo isLinked fun isLast => (lastLinked fp isLast).1 rfl] at isCell
      cases isCell
      rw [same]
      exact Or.inr (Or.inl rfl)
    · rw [lookups] at isCell
      rcases Option.map_eq_some_iff.mp isCell with ⟨old, isOld, rfl⟩
      rcases valid.rest address old isOld with isLinked' | ⟨holder, isHolders⟩
      · exact Or.inl ((lookupsObject address same).trans (congrArg (Option.map _) isLinked'))
      · have private_ := (valid.stands holder).own address old isHolders
        have notLast : before.getLast? ≠ some address := fun isLast =>
          (lastLinked address isLast).2 private_.2
        rw [if_neg notLast]
        refine Or.inr (Or.inr ⟨holder, ?_, isHolders⟩)
        intro isThread
        rw [isThread, isPoint] at isHolders
        cases isHolders

end Moves

end Valid

end Apue.Threads
