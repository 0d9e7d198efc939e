import Apue.Threads.LockedOperations

/-! # Interleavings of the operations of `mutex2.c`

Every interleaving is equivalent to a run of `mutex3.c` in which each operation is one
step.
-/

namespace Apue.Threads

open Apue.Foundation

variable {Thread : Type} [DecidableEq Thread] [Fintype Thread] {thread : Thread}
  {owned : References} {fp : Address} {id : Int}

/-! ## The operations -/

/-- An operation is over, and has taken effect. -/
def Settled (owned : References) (operation : Operation) (result : Return) (there : Known) : Prop :=
  there = ⟨.resting, owned.change operation result, .effected result⟩

/-- Two locks, and the one that is left when the other is released. -/
theorem left_hashlock (other : Lock) :
    other = .hashlock ↔ (other = .hashlock ∨ other = .f_lock fp) ∧ other ≠ .f_lock fp := by
  constructor
  · rintro rfl
    exact ⟨Or.inl rfl, Ne.symm f_lock_ne_hashlock⟩
  · exact fun both => both.1.resolve_right both.2

theorem left_f_lock (other : Lock) :
    other = .f_lock fp ↔ (other = .hashlock ∨ other = .f_lock fp) ∧ other ≠ .hashlock := by
  constructor
  · rintro rfl
    exact ⟨Or.inr rfl, f_lock_ne_hashlock⟩
  · exact fun both => both.1.resolve_left both.2

theorem left_none (lock other : Lock) : False ↔ other = lock ∧ other ≠ lock :=
  ⟨nofun, fun both => both.2 both.1⟩

theorem foo_alloc_safe :
    (threadLogic Thread).Safe thread
      (fun fp there => Settled owned (.alloc id) (.pointer fp) there) (foo_alloc id)
      ⟨.resting, owned, .called (.alloc id)⟩ := by
  refine safe_malloc rfl rfl ?_ ?_
  · exact rfl
  · intro fp foo
    refine safe_setCount rfl ?_
    refine safe_setId rfl ?_
    refine safe_mutexInit rfl rfl ?_ ?_
    · exact safe_free rfl rfl
    · refine safe_hashlock (.pushing fp ⟨1, id, foo.f_next⟩) (fun _ held => held) (fun _ => Iff.rfl)
        rfl rfl rfl ?_
      refine safe_push rfl rfl ?_
      have owns : 0 < owned.change (.alloc id) (.pointer (some fp)) fp := by
        rw [References.change, Function.update_self]
        exact Nat.succ_pos _
      refine safe_f_lock (.both fp none none) (fun _ => f_lock_ne_hashlock) (Or.inl owns)
        (fun _ => Iff.rfl) rfl rfl (fun _ _ searched => by cases searched) ?_
      refine safe_unlock (.holding fp none) (Or.inl rfl) left_f_lock rfl rfl rfl ?_
      refine safe_unlock .resting rfl (left_none _) rfl rfl rfl ?_
      exact rfl

theorem change_hold (owned : References) (fp : Address) :
    ((owned.change (.hold fp) .void fp : Nat) : Int) - owned fp = 1 := by
  rw [References.change, Function.update_self]
  omega

theorem foo_hold_safe (owns : 0 < owned fp) :
    (threadLogic Thread).Safe thread (fun _ there => Settled owned (.hold fp) .void there)
      (Mutex2.foo_hold fp) ⟨.resting, owned, .called (.hold fp)⟩ := by
  refine safe_f_lock (.holding fp none) (fun _ held => held) (Or.inl owns)
    (fun _ => (or_iff_right id).symm) rfl rfl nofun ?_
  refine safe_getCount (fun count => .holding fp (some count)) rfl rfl (fun _ _ => Iff.rfl)
    (fun _ => rfl) (fun _ => rfl) (fun _ => rfl) ?_
  intro count
  refine safe_recount .void (.holding fp none) rfl rfl rfl rfl ?_ ?_ ?_ ?_ ?_ ?_ ?_ ?_ ?_
  · intro object foo open_ found isOld _
    rw [← isOld]
    exact effect_hold (open_ _) found
  · exact fun other different => Function.update_of_ne different _ _
  · rw [change_hold]
  · intro positive
    omega
  · exact fun _ => Iff.rfl
  · rfl
  · rfl
  · exact nofun
  · refine safe_unlock .resting rfl (left_none _) rfl rfl rfl ?_
    exact rfl

/-- `foo_hold`, called by `foo_find`. -/
theorem found_hold_safe :
    (threadLogic Thread).Safe thread
      (fun _ there => there = ⟨.hashing, owned.change (.find id) (.pointer (some fp)),
        .effected (.pointer (some fp))⟩)
      (Mutex2.foo_hold fp) ⟨.found id fp, owned, .called (.find id)⟩ := by
  refine safe_f_lock (.both fp (some id) none) (fun _ => f_lock_ne_hashlock) (Or.inr ⟨id, rfl⟩)
    (fun _ => Iff.rfl) rfl rfl (fun _ _ searched => searched) ?_
  refine safe_getCount (fun count => .both fp (some id) (some count)) (Or.inr rfl) rfl
    (fun _ _ => Iff.rfl) (fun _ => rfl) (fun _ => rfl) (fun _ => rfl) ?_
  intro count
  refine safe_recount (.pointer (some fp)) (.both fp none none) (Or.inr rfl) rfl rfl rfl ?_ ?_ ?_ ?_ ?_ ?_ ?_ ?_ ?_
  · intro object foo open_ found isOld searched
    rw [← isOld]
    exact effect_find (open_ _) found (searched id rfl)
  · exact fun other different => Function.update_of_ne different _ _
  · exact congrArg _ (change_hold owned fp).symm
  · intro positive
    omega
  · exact fun _ => Iff.rfl
  · rfl
  · rfl
  · exact nofun
  · refine safe_unlock .hashing (Or.inr rfl) left_hashlock rfl rfl rfl ?_
    exact rfl

theorem foo_find_safe :
    (threadLogic Thread).Safe thread
      (fun fp there => Settled owned (.find id) (.pointer fp) there) (Mutex2.foo_find id)
      ⟨.resting, owned, .called (.find id)⟩ := by
  refine safe_hashlock .hashing (fun _ held => held) (fun _ => Iff.rfl) rfl rfl rfl ?_
  refine safe_search rfl rfl ?_ ?_
  · refine safe_unlock .resting rfl (left_none _) rfl rfl rfl ?_
    exact rfl
  · intro fp
    apply LocalLogic.Safe.bind
    apply found_hold_safe.mono
    rintro _ there rfl
    refine safe_unlock .resting rfl (left_none _) rfl rfl rfl ?_
    exact rfl

theorem change_rele (owns : 0 < owned fp) :
    ((owned.change (.rele fp) .void fp : Nat) : Int) - owned fp = -1 := by
  rw [References.change, Function.update_self]
  omega

/-- The count goes down, and there are other references left. -/
theorem releases (point : Point) {known : Known} {Result : Type} {post : Result → Known → Prop}
    {rest : Unit → Code Result} {count : Int} (more : count ≠ 1) (owns : 0 < known.owned fp)
    (called : known.pending = .called (.rele fp)) (held : known.point.Holds (.f_lock fp))
    (noMine : known.point.mine = none) (counted : known.point.counted = some (fp, count))
    (holds : ∀ lock, point.Holds lock ↔ known.point.Holds lock) (mine : point.mine = none)
    (uncounted : point.counted = none) (unsearched : point.searched = none)
    (safe : (threadLogic Thread).Safe thread post (rest ())
      ⟨point, known.owned.change (.rele fp) .void, .effected .void⟩) :
    (threadLogic Thread).Safe thread post
      (Program.perform (Command.setCount fp (count - 1)) >>= rest) known := by
  refine safe_recount .void point held noMine counted called ?_ ?_ ?_ ?_ holds mine uncounted ?_ safe
  · intro object foo open_ found isOld _
    rw [← isOld]
    exact effect_rele (open_ _) found (isOld ▸ more)
  · exact fun other different => Function.update_of_ne different _ _
  · rw [change_rele owns]
    rfl
  · intro positive
    omega
  · rw [unsearched]
    exact nofun

theorem foo_rele_safe (owns : 0 < owned fp) :
    (threadLogic Thread).Safe thread (fun _ there => Settled owned (.rele fp) .void there)
      (Mutex2.foo_rele fp) ⟨.resting, owned, .called (.rele fp)⟩ := by
  refine safe_f_lock (.holding fp none) (fun _ held => held) (Or.inl owns)
    (fun _ => (or_iff_right id).symm) rfl rfl nofun ?_
  refine safe_getCount (fun count => .holding fp (some count)) rfl rfl (fun _ _ => Iff.rfl)
    (fun _ => rfl) (fun _ => rfl) (fun _ => rfl) ?_
  intro count
  by_cases last : count = 1
  · rw [if_pos last]
    refine safe_unlock .resting rfl (left_none _) rfl rfl rfl ?_
    -- Others may hold and release the object here.
    refine safe_hashlock .hashing (fun _ held => held) (fun _ => Iff.rfl) rfl rfl rfl ?_
    refine safe_f_lock (.both fp none none) (fun _ => f_lock_ne_hashlock) (Or.inl owns)
      (fun _ => Iff.rfl) rfl rfl nofun ?_
    refine safe_getCount (fun count => .both fp none (some count)) (Or.inr rfl) rfl
      (fun _ _ => Iff.rfl) (fun _ => rfl) (fun _ => rfl) (fun _ => rfl) ?_
    intro count
    by_cases more : count ≠ 1
    · rw [if_pos more]
      refine releases (.both fp none none) more owns rfl (Or.inr rfl) rfl rfl (fun _ => Iff.rfl) rfl
        rfl rfl ?_
      refine safe_unlock .hashing (Or.inr rfl) left_hashlock rfl rfl rfl ?_
      refine safe_unlock .resting rfl (left_none _) rfl rfl rfl ?_
      exact rfl
    · rw [if_neg more]
      rcases not_not.mp more with rfl
      refine safe_unlink rfl owns rfl ?_
      intro foo
      refine safe_unlock (.leaving fp foo) (Or.inl rfl) left_f_lock rfl rfl rfl ?_
      refine safe_unlock (.building fp foo) rfl (left_none _) rfl rfl rfl ?_
      refine safe_mutexDestroy rfl ?_
      exact safe_free rfl rfl
  · rw [if_neg last]
    refine releases (.holding fp none) last owns rfl rfl rfl rfl (fun _ => Iff.rfl) rfl rfl rfl ?_
    refine safe_unlock .resting rfl (left_none _) rfl rfl rfl ?_
    exact rfl

theorem code_safe {operation : Operation} (may : operation.Permitted owned) :
    (threadLogic Thread).Safe thread (fun result there => Settled owned operation result there)
      (Mutex2.code operation) ⟨.resting, owned, .called operation⟩ := by
  cases operation with
  | alloc id => exact LocalLogic.Safe.bind (foo_alloc_safe.mono fun _ _ settled => settled)
  | hold fp => exact LocalLogic.Safe.bind ((foo_hold_safe may).mono fun _ _ settled => settled)
  | find id => exact LocalLogic.Safe.bind (foo_find_safe.mono fun _ _ settled => settled)
  | rele fp => exact LocalLogic.Safe.bind ((foo_rele_safe may).mono fun _ _ settled => settled)

/-- Between two operations, or behind the last. -/
def Idle (known : Known) : Prop := known.point = .resting ∧ known.pending = .idle

theorem client_safe {client : Client} (careful : client.Careful owned) :
    (threadLogic Thread).Safe thread (fun _ there => Idle there) client.run
      ⟨.resting, owned, .idle⟩ := by
  induction client generalizing owned with
  | done _ => exact ⟨rfl, rfl⟩
  | call operation next hypothesis =>
      refine safe_invoke rfl rfl careful.1 ?_
      apply LocalLogic.Safe.bind
      apply (code_safe careful.1).mono
      rintro result there rfl
      refine safe_respond rfl rfl ?_
      exact hypothesis result (careful.2 result)

/-! ## Every reachable state -/

/-- The object that a command is about. -/
def Command.Uses : Command → Address → Prop
  | .setCount fp _, other | .setId fp _, other | .mutexInit fp, other | .mutexDestroy fp, other
  | .free fp, other | .lock (.f_lock fp), other | .unlock (.f_lock fp), other
  | .getCount fp, other | .push fp _, other | .unlink fp, other => other = fp
  | _, _ => False

abbrev Running (Thread : Type) : Type := Pool Thread Command Response (State Thread) Unit

/-- What a thread does next. -/
def Next (threads : Running Thread) (thread : Thread) (command : Command) : Prop :=
  ∃ next, threads.programs thread = .call command next

def Finished (threads : Running Thread) (thread : Thread) : Prop :=
  threads.programs thread = .done ()

/-- A thread has no operation under way. -/
def AtRest (threads : Running Thread) (thread : Thread) : Prop :=
  Finished threads thread ∨ ∃ operation, Next threads thread (.invoke operation)

def CanStep (threads : Running Thread) (thread : Thread) : Prop :=
  ∃ command response after, Next threads thread command ∧
    Step thread command threads.state response after

/-- A thread waits for a lock that another holds. -/
def Waits (threads : Running Thread) (thread other : Thread) : Prop :=
  ∃ lock, Next threads thread (.lock lock) ∧ threads.state.memory.locks lock = some other

/-- The threads have come to where a run of `mutex3.c` in single steps has come to
`object`. -/
structure Equivalent (threads : Running Thread) (object : Object Thread) : Prop where
  /-- With the same calls and results in the same order. -/
  explains : ∃ pending, AtomicObject.Explains Effect (AtomicObject.start (emptyObject Thread))
    ⟨object, pending⟩ threads.state.history
  same : ∀ fp foo, object.memory.heap.lookup fp = some foo ↔
    threads.state.memory.heap.lookup fp = some foo ∧ 1 ≤ object.references fp
  heads : threads.state.memory.fh = object.memory.fh
  counted : ∀ fp, 1 ≤ object.references fp → ∃ foo,
    threads.state.memory.heap.lookup fp = some foo ∧ foo.f_count = object.references fp
  /-- The objects with references are on the chains of their ids, and no others are. -/
  chained : ∃ chains : Nat → List Address,
    (∀ idx, threads.state.memory.heap.Path Foo.f_next (threads.state.memory.fh idx) (chains idx)) ∧
    ∀ idx fp, fp ∈ chains idx ↔ 1 ≤ object.references fp ∧ ∃ foo,
      threads.state.memory.heap.lookup fp = some foo ∧ HASH foo.f_id = idx
  /-- One thread is about to put any other object on its chain, or to free it. -/
  own : ∀ fp, threads.state.memory.heap.lookup fp ≠ none → object.references fp = 0 →
    ∃ thread, ¬ AtRest threads thread ∧ ∀ other command, Next threads other command →
      command.Uses fp → other = thread
  used : ∀ thread command fp, Next threads thread command → command.Uses fp →
    threads.state.memory.heap.lookup fp ≠ none
  unlinked : ∀ thread fp, Next threads thread (.unlink fp) → object.references fp = 1
  freed : ∀ thread fp, Next threads thread (.free fp) → object.references fp = 0
  locked : ∀ lock thread, threads.state.memory.locks lock = some thread →
    ¬ AtRest threads thread

section Reachable

variable {ghost : Ghost Thread} {threads : Running Thread} {clients : Thread → Client}

theorem startGhost_valid : Valid ⟨fun _ => .resting, AtomicObject.start (emptyObject Thread)⟩
    ⟨emptyMemory Thread, []⟩ where
  explains := .refl
  sound :=
    { chained := ⟨fun _ => [], fun _ => rfl, nofun, nofun⟩
      unlocked := fun _ => rfl
      counted := nofun
      unowned := fun _ _ _ => rfl }
  locks := fun _ _ => ⟨nofun, nofun⟩
  heads := rfl
  linked := nofun
  stands := fun _ => ⟨nofun, nofun, nofun, nofun⟩
  apart := nofun
  rest := nofun

theorem reachable_safe (careful : ∀ thread, (clients thread).Careful fun _ => 0)
    (reached : Pool.Reachable Step (start clients) threads) :
    (threadLogic Thread).PoolSafe (fun _ _ there => Idle there) threads := by
  have first : (threadLogic Thread).PoolSafe (fun _ _ there => Idle there) (start clients) :=
    ⟨_, startGhost_valid, fun thread => client_safe (careful thread)⟩
  exact first.reachable reached

omit [DecidableEq Thread] in
theorem Sound.present_iff {object : Object Thread} (sound : Sound object) :
    object.memory.heap.lookup fp ≠ none ↔ 1 ≤ object.references fp := by
  constructor
  · intro present
    rcases Option.ne_none_iff_exists'.mp present with ⟨foo, found⟩
    have counted := sound.counted fp foo found
    omega
  · intro positive absent
    have none : object.references fp = 0 := by
      apply Finset.sum_eq_zero
      intro thread _
      rw [sound.unowned fp absent thread]
      rfl
    omega

omit [DecidableEq Thread] in
theorem Sound.absent_iff {object : Object Thread} (sound : Sound object) :
    object.memory.heap.lookup fp = none ↔ object.references fp = 0 := by
  have nonnegative : 0 ≤ object.references fp := Finset.sum_nonneg fun _ _ => Int.natCast_nonneg _
  have present : object.memory.heap.lookup fp ≠ none ↔ 1 ≤ object.references fp :=
    sound.present_iff
  rw [← not_iff_not, ← ne_eq, present]
  omega

/-- A command is about an object on a chain or about one of the thread's own. -/
theorem Valid.reaches {state : State Thread} (valid : Valid ghost state) {command : Command}
    (permitted : (ghost.known thread).Permitted command) (uses : command.Uses fp) :
    ghost.atomic.object.memory.heap.lookup fp ≠ none ∨
      ∃ foo, (ghost.points thread).mine = some (fp, foo) := by
  have stands := valid.stands thread
  have building (found : ∃ foo, ghost.points thread = .building fp foo) :
      ∃ foo, (ghost.points thread).mine = some (fp, foo) :=
    found.imp fun _ isPoint => congrArg Point.mine isPoint
  cases command with
  | setCount other count =>
      cases uses
      rcases permitted with isMine | held
      · exact Or.inr isMine
      · exact stands.locked fp held
  | setId | mutexInit | mutexDestroy | free =>
      cases uses
      exact Or.inr (building permitted)
  | lock lock =>
      cases lock with
      | hashlock => cases uses
      | f_lock other =>
          cases uses
          exact Or.inl (valid.present_of_lock permitted)
  | unlock lock =>
      cases lock with
      | hashlock => cases uses
      | f_lock other =>
          cases uses
          exact stands.locked fp permitted
  | getCount =>
      cases uses
      exact stands.locked fp permitted
  | push =>
      cases uses
      exact Or.inr (permitted.imp fun _ isPoint => congrArg Point.mine isPoint)
  | unlink =>
      cases uses
      rcases permitted with ⟨_, isPoint⟩
      change ghost.points thread = _ at isPoint
      apply stands.locked fp
      rw [isPoint]
      exact Or.inr rfl
  | malloc | search | invoke | respond => cases uses

theorem Valid.allocated {state : State Thread} (valid : Valid ghost state) {command : Command}
    (permitted : (ghost.known thread).Permitted command) (uses : command.Uses fp) :
    state.memory.heap.lookup fp ≠ none := by
  rcases valid.reaches permitted uses with present | ⟨foo, isMine⟩
  · rcases Option.ne_none_iff_exists'.mp present with ⟨foo, found⟩
    exact ne_none_of_eq (valid.linked fp foo found)
  · exact ne_none_of_eq ((valid.stands thread).own fp foo isMine).1

section Safe

variable (valid : Valid ghost threads.state)
  (safe : ∀ thread, (threadLogic Thread).Safe thread (fun _ there => Idle there)
    (threads.programs thread) (ghost.known thread))

include safe

theorem permitted_of_next {command : Command} (next : Next threads thread command) :
    (ghost.known thread).Permitted command := by
  rcases next with ⟨rest, isProgram⟩
  have mine := safe thread
  rw [isProgram] at mine
  exact mine.1

theorem resting_of_atRest (atRest : AtRest threads thread) : ghost.points thread = .resting := by
  rcases atRest with isDone | ⟨operation, next⟩
  · have mine := safe thread
    rw [isDone] at mine
    exact mine.1
  · exact (permitted_of_next safe next).1

include valid

theorem equivalent : Equivalent threads ghost.atomic.object where
  explains := ⟨ghost.atomic.pending, valid.explains⟩
  same := by
    intro fp foo
    rw [← valid.sound.present_iff]
    constructor
    · exact fun found => ⟨valid.linked fp foo found, ne_none_of_eq found⟩
    · rintro ⟨found, present⟩
      rcases Option.ne_none_iff_exists'.mp present with ⟨foo', isLinked⟩
      rw [valid.linked fp foo' isLinked] at found
      rw [isLinked, found]
  heads := valid.heads
  counted := by
    intro fp positive
    rcases Option.ne_none_iff_exists'.mp (valid.sound.present_iff.mpr positive) with ⟨foo, found⟩
    exact ⟨foo, valid.linked fp foo found, (valid.sound.counted fp foo found).1⟩
  chained := by
    rcases valid.sound.chained with ⟨chains, chained⟩
    refine ⟨chains, ?_, ?_⟩
    · intro idx
      rw [valid.heads]
      apply (chained.path idx).of_same_next
      exact fun address _ cell isCell => ⟨cell, valid.linked address cell isCell, rfl⟩
    · intro idx fp
      rw [← valid.sound.present_iff]
      constructor
      · intro member
        have present := Finmap.lookup_isSome.mpr ((chained.path idx).mem_keys fp member)
        rcases Option.isSome_iff_exists.mp present with ⟨foo, found⟩
        exact ⟨ne_none_of_eq found, foo, valid.linked fp foo found,
          chained.hashed idx fp foo member found⟩
      · rintro ⟨present, foo, found, hashed⟩
        rcases Option.ne_none_iff_exists'.mp present with ⟨foo', isLinked⟩
        rw [valid.linked fp foo' isLinked] at found
        cases found
        rw [← hashed]
        exact chained.every fp foo isLinked
  own := by
    intro fp allocated none
    have absent := valid.sound.absent_iff.mpr none
    rcases Option.ne_none_iff_exists'.mp allocated with ⟨foo, found⟩
    rcases valid.rest fp foo found with isLinked | ⟨thread, isMine⟩
    · rw [absent] at isLinked
      cases isLinked
    · refine ⟨thread, ?_, ?_⟩
      · intro atRest
        rw [resting_of_atRest safe atRest] at isMine
        cases isMine
      · intro other command next uses
        rcases valid.reaches (permitted_of_next safe next) uses with present | ⟨foo', others⟩
        · exact absurd absent present
        · exact valid.apart other thread fp foo' foo others isMine
  used := fun _ _ _ next uses => valid.allocated (permitted_of_next safe next) uses
  unlinked := by
    intro thread fp next
    rcases permitted_of_next safe next with ⟨id, isPoint⟩
    change ghost.points thread = _ at isPoint
    have counted : (ghost.points thread).counted = some (fp, 1) := by
      rw [isPoint]
      rfl
    rcases Option.map_eq_some_iff.mp ((valid.stands thread).counted fp 1 counted) with
      ⟨foo, found, isCount⟩
    exact (valid.sound.counted fp foo found).1.symm.trans isCount
  freed := by
    intro thread fp next
    rcases permitted_of_next safe next with ⟨foo, isPoint⟩
    exact valid.sound.absent_iff.mp
      ((valid.stands thread).own fp foo (congrArg Point.mine isPoint)).2
  locked := by
    intro lock thread holds atRest
    have held := (valid.locks lock thread).mp holds
    rw [resting_of_atRest safe atRest] at held
    exact held

/-! ## Waiting -/

/-- How far a thread is in the order in which locks are taken. -/
def waitRank (threads : Running Thread) (thread : Thread) : Nat :=
  match threads.programs thread with
  | .call (.lock .hashlock) _ => 0
  | .call (.lock (.f_lock _)) _ => 1
  | _ => 2

theorem waitRank_increasing {other : Thread} (waits : Waits threads thread other) :
    waitRank threads thread < waitRank threads other := by
  rcases waits with ⟨lock, ⟨next, isProgram⟩, holds⟩
  have held := (valid.locks lock other).mp holds
  have theirs := safe other
  cases lock with
  | hashlock =>
      rw [waitRank, isProgram]
      generalize isOthers : threads.programs other = program at theirs
      rw [waitRank, isOthers]
      cases program with
      | done => exact Nat.succ_pos 1
      | call command rest =>
          cases command with
          | lock lock =>
              cases lock with
              | hashlock => exact absurd held (theirs.1 _)
              | f_lock => exact Nat.succ_pos 0
          | _ => exact Nat.succ_pos 1
  | f_lock fp =>
      rw [waitRank, isProgram]
      generalize isOthers : threads.programs other = program at theirs
      rw [waitRank, isOthers]
      cases program with
      | done => exact Nat.lt_succ_self 1
      | call command rest =>
          cases command with
          | lock lock =>
              cases lock with
              | hashlock => exact absurd held (theirs.1 _)
              | f_lock => exact absurd held (theirs.1.1 fp)
          | _ => exact Nat.lt_succ_self 1

/-- A thread that is waited for has an operation under way. -/
theorem busy_of_waits {other : Thread} (waits : Waits threads thread other) :
    ¬ AtRest threads other := by
  rcases waits with ⟨lock, _, holds⟩
  exact (equivalent valid safe).locked lock other holds

/-- No thread stops at an object that is not there. -/
theorem canStep_or_waits (unfinished : ¬ Finished threads thread) :
    CanStep threads thread ∨ ∃ other, Waits threads thread other := by
  cases isProgram : threads.programs thread with
  | done => exact absurd isProgram unfinished
  | call command next =>
      have comes : Next threads thread command := ⟨next, isProgram⟩
      have permitted := permitted_of_next safe comes
      have present (fp : Address) (uses : command.Uses fp) :
          ∃ foo, threads.state.memory.heap.lookup fp = some foo :=
        Option.ne_none_iff_exists'.mp (valid.allocated permitted uses)
      have steps (response : Response command) (after : Memory Thread)
          (stepped : MemoryStep thread command threads.state.memory response after) :
          CanStep threads thread :=
        ⟨command, response, ⟨after, _⟩, comes, stepped, rfl⟩
      cases command with
      | malloc => exact Or.inl (steps none _ (Or.inl ⟨rfl, rfl⟩))
      | setCount fp count =>
          rcases present fp rfl with ⟨foo, found⟩
          exact Or.inl (steps () _ (modify_eq found _))
      | setId fp id =>
          rcases present fp rfl with ⟨foo, found⟩
          exact Or.inl (steps () _ (modify_eq found _))
      | mutexInit fp =>
          rcases present fp rfl with ⟨foo, found⟩
          exact Or.inl (steps false _ ⟨ne_none_of_eq found, Or.inl ⟨rfl, rfl⟩⟩)
      | mutexDestroy fp =>
          rcases present fp rfl with ⟨foo, found⟩
          rcases permitted with ⟨mine, isPoint⟩
          change ghost.points thread = _ at isPoint
          have unlocked : threads.state.memory.locks (.f_lock fp) = none := by
            apply valid.unlocked_of_mine (congrArg Point.mine isPoint)
            intro other
            rw [isPoint]
            exact fun held => held
          exact Or.inl (steps () _ ⟨ne_none_of_eq found, unlocked, rfl⟩)
      | free fp =>
          rcases present fp rfl with ⟨foo, found⟩
          exact Or.inl (steps () _ ⟨ne_none_of_eq found, rfl⟩)
      | lock lock =>
          cases holder : threads.state.memory.locks lock with
          | some other => exact Or.inr ⟨other, lock, comes, holder⟩
          | none =>
              refine Or.inl (steps () _ ⟨?_, holder, rfl⟩)
              rintro fp rfl
              exact valid.allocated permitted rfl
      | unlock lock =>
          refine Or.inl (steps () _ ⟨?_, (valid.locks lock thread).mpr permitted, rfl⟩)
          rintro fp rfl
          exact valid.allocated permitted rfl
      | getCount fp =>
          rcases present fp rfl with ⟨foo, found⟩
          exact Or.inl (steps foo.f_count _ ⟨congrArg (Option.map Foo.f_count) found, rfl⟩)
      | push fp idx =>
          rcases present fp rfl with ⟨foo, found⟩
          exact Or.inl (steps () _ (push_eq found))
      | search id =>
          rcases valid.sound.chained with ⟨chains, chained⟩
          exact Or.inl (steps _ _ ⟨(valid.search id).trans (chained.search id), rfl⟩)
      | unlink fp =>
          rcases present fp rfl with ⟨foo, found⟩
          rcases (equivalent valid safe).chained with ⟨chains, paths, members⟩
          have references := (equivalent valid safe).unlinked thread fp comes
          have member := (members (HASH foo.f_id) fp).mpr ⟨by omega, foo, found, rfl⟩
          rcases List.append_of_mem member with ⟨before, behind, split⟩
          exact Or.inl (steps () _ (unlink_eq found (split ▸ paths (HASH foo.f_id))))
      | invoke | respond => exact Or.inl (steps () _ rfl)

/-- While a thread is not finished, some thread can take a step. -/
theorem progress (unfinished : ¬ Finished threads thread) : ∃ other, CanStep threads other := by
  have bounded (thread : Thread) : waitRank threads thread ≤ 2 := by
    rw [waitRank]
    split <;> omega
  induction left : 2 - waitRank threads thread using Nat.strong_induction_on generalizing
    thread with
  | _ left hypothesis =>
      rcases canStep_or_waits valid safe unfinished with steps | ⟨other, waits⟩
      · exact ⟨thread, steps⟩
      · have increasing := waitRank_increasing valid safe waits
        have bound := bounded other
        apply hypothesis (2 - waitRank threads other) _ _ rfl
        · omega
        · exact fun isDone => busy_of_waits valid safe waits (Or.inl isDone)

end Safe

omit [Fintype Thread] in
theorem thread_step (threads : Running Thread) (thread : Thread) {command : Command}
    {next : Response command → Code Unit} {response : Response command} {after : Memory Thread}
    (waiting : threads.programs thread = .call command next)
    (stepped : MemoryStep thread command threads.state.memory response after) :
    Pool.Step Step threads ⟨Function.update threads.programs thread (next response),
      ⟨after, threads.state.history ++ command.event thread⟩⟩ :=
  .take thread waiting ⟨stepped, rfl⟩

end Reachable

def allocAndFind : Bool → Client
  | true => .call (.alloc 5) fun _ => .done ()
  | false => .call (.find 5) fun _ => .done ()

end Apue.Threads
