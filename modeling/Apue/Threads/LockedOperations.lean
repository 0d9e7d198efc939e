import Apue.Threads.LockedReferences

/-! # The operations of `mutex2.c`

Every operation takes effect once, at the step that changes the count of an object or
its chain, or that finds that there is nothing to do.
-/

namespace Apue.Threads

open Apue.Foundation

/-- What a thread knows of itself. -/
structure Known where
  point : Point
  owned : References
  pending : Pending Operation Return

/-- The commands that a thread may come to. -/
def Known.Permitted (known : Known) : Command → Prop
  | .malloc => known.point = .resting
  | .setCount fp _ => (∃ foo, known.point.mine = some (fp, foo)) ∨ known.point.Holds (.f_lock fp)
  | .setId fp _ | .mutexInit fp | .mutexDestroy fp | .free fp =>
      ∃ foo, known.point = .building fp foo
  | .lock .hashlock => ∀ lock, ¬ known.point.Holds lock
  | .lock (.f_lock fp) => (∀ other, ¬ known.point.Holds (.f_lock other)) ∧
      (0 < known.owned fp ∨ ∃ id, known.point.searched = some (id, fp))
  | .unlock lock => known.point.Holds lock
  | .getCount fp => known.point.Holds (.f_lock fp)
  | .push fp _ => ∃ foo, known.point = .pushing fp foo
  | .search _ => known.point = .hashing
  | .unlink fp => ∃ id, known.point = .both fp id (some 1)
  | .invoke operation => known.point = .resting ∧ known.pending = .idle ∧
      operation.Permitted known.owned
  | .respond result => known.point = .resting ∧ known.pending = .effected result

variable {Thread : Type}

def Ghost.known (ghost : Ghost Thread) (thread : Thread) : Known where
  point := ghost.points thread
  owned := ghost.atomic.object.owned thread
  pending := ghost.atomic.pending thread

variable [DecidableEq Thread] [Fintype Thread]

variable (Thread) in
abbrev threadLogic : LocalLogic Thread Command Response (State Thread) (Ghost Thread) Known where
  step := Step
  valid := Valid
  localOf := fun thread ghost => ghost.known thread
  allowed := fun _ command known => known.Permitted command

section Steps

variable {ghost : Ghost Thread} {state : State Thread} {thread : Thread} {known : Known}
  {Result : Type} {post : Result → Known → Prop} {fp : Address} {foo : Foo}

theorem safe_moves {command : Command} {rest : Response command → Code Result}
    (permitted : known.Permitted command)
    (moved : ∀ ghost state, Valid ghost state → ghost.known thread = known → ∀ response after,
      Step thread command state response after → ∃ there atomic,
        Valid ⟨Function.update ghost.points thread there.point, atomic⟩ after ∧
        atomic.object.owned = Function.update ghost.atomic.object.owned thread there.owned ∧
        atomic.pending = Function.update ghost.atomic.pending thread there.pending ∧
        (threadLogic Thread).Safe thread post (rest response) there) :
    (threadLogic Thread).Safe thread post (Program.perform command >>= rest) known := by
  apply LocalLogic.Safe.perform permitted
  intro ghost state valid same response after stepped
  rcases moved ghost state valid same response after stepped with
    ⟨there, atomic, valid', owned, pending, safe⟩
  refine ⟨_, valid', ?_, ?_⟩
  · intro other different
    change Known.mk _ _ _ = Known.mk _ _ _
    dsimp only
    rw [Function.update_of_ne different, owned, Function.update_of_ne different, pending,
      Function.update_of_ne different]
  · change LocalLogic.Safe _ _ _ _ (Known.mk _ _ _)
    dsimp only
    rw [Function.update_self, owned, Function.update_self, pending, Function.update_self]
    exact safe

/-- A step that `mutex3.c` does not take. -/
theorem safe_point {command : Command} {rest : Response command → Code Result}
    (permitted : known.Permitted command)
    (moved : ∀ ghost state, Valid ghost state → ghost.known thread = known → ∀ response after,
      Step thread command state response after → ∃ point,
        Valid ⟨Function.update ghost.points thread point, ghost.atomic⟩ after ∧
        (threadLogic Thread).Safe thread post (rest response) { known with point := point }) :
    (threadLogic Thread).Safe thread post (Program.perform command >>= rest) known := by
  apply safe_moves permitted
  intro ghost state valid same response after stepped
  rcases moved ghost state valid same response after stepped with ⟨point, valid', safe⟩
  rw [← same] at safe
  exact ⟨_, ghost.atomic, valid', (Function.update_eq_self _ _).symm,
    (Function.update_eq_self _ _).symm, safe⟩

theorem Valid.present_of_owned (valid : Valid ghost state)
    (owns : 0 < ghost.atomic.object.owned thread fp) :
    ghost.atomic.object.memory.heap.lookup fp ≠ none := by
  intro absent
  have none := valid.sound.unowned fp absent thread
  omega

theorem Valid.present_of_searched (valid : Valid ghost state) {id : Int}
    (searched : ghost.atomic.object.memory.search id = some (some fp)) :
    ghost.atomic.object.memory.heap.lookup fp ≠ none := by
  rcases valid.sound.chained with ⟨chains, chained⟩
  rw [chained.search] at searched
  rcases firstWith_spec (Option.some.inj searched) with ⟨_, foo, found, _⟩
  exact ne_none_of_eq found

theorem Valid.present_of_lock (valid : Valid ghost state)
    (permitted : (ghost.known thread).Permitted (.lock (.f_lock fp))) :
    ghost.atomic.object.memory.heap.lookup fp ≠ none := by
  rcases permitted.2 with owns | ⟨id, isSearched⟩
  · exact valid.present_of_owned owns
  · exact valid.present_of_searched ((valid.stands thread).searched id fp isSearched)

theorem safe_lock {lock : Lock} {rest : Unit → Code Result} (point : Point)
    (permitted : known.Permitted (.lock lock))
    (holds : ∀ other, point.Holds other ↔ known.point.Holds other ∨ other = lock)
    (mine : point.mine = known.point.mine) (uncounted : point.counted = none)
    (searched : ∀ id fp, point.searched = some (id, fp) → known.point.searched = some (id, fp))
    (safe : (threadLogic Thread).Safe thread post (rest ()) { known with point := point }) :
    (threadLogic Thread).Safe thread post (Program.perform (Command.lock lock) >>= rest) known := by
  apply safe_point permitted
  intro ghost state valid same response after stepped
  refine ⟨point, ?_, safe⟩
  rcases stepped with ⟨⟨_, free, isAfter⟩, history⟩
  subst same
  have stands := valid.stands thread
  apply valid.quiet rfl
  · rw [history]
    exact (List.append_nil state.history).symm ▸ valid.explains
  · rw [isAfter]
    rfl
  · rw [isAfter]
    rfl
  · rw [isAfter]
    exact locks_acquire valid free holds
  · exact mine
  · intro fp held
    rcases (holds _).mp held with old | isLock
    · rw [mine]
      exact stands.locked fp old
    · rw [← isLock] at permitted
      exact Or.inl (valid.present_of_lock permitted)
  · rw [uncounted]
    exact nofun
  · exact fun id fp isSearched => stands.searched id fp (searched id fp isSearched)

theorem safe_hashlock {rest : Unit → Code Result} (point : Point)
    (free : ∀ lock, ¬ known.point.Holds lock) (holds : ∀ lock, point.Holds lock ↔ lock = .hashlock)
    (mine : point.mine = known.point.mine) (uncounted : point.counted = none)
    (unsearched : point.searched = none)
    (safe : (threadLogic Thread).Safe thread post (rest ()) { known with point := point }) :
    (threadLogic Thread).Safe thread post (Program.perform (Command.lock .hashlock) >>= rest)
      known := by
  have permitted : known.Permitted (.lock .hashlock) := free
  apply safe_lock point permitted ?_ mine uncounted ?_ safe
  · intro lock
    rw [holds]
    exact ⟨Or.inr, fun either => either.resolve_left (free lock)⟩
  · rw [unsearched]
    exact nofun

theorem safe_f_lock {rest : Unit → Code Result} (point : Point)
    (free : ∀ other, ¬ known.point.Holds (.f_lock other))
    (may : 0 < known.owned fp ∨ ∃ id, known.point.searched = some (id, fp))
    (holds : ∀ other, point.Holds other ↔ known.point.Holds other ∨ other = .f_lock fp)
    (mine : point.mine = known.point.mine) (uncounted : point.counted = none)
    (searched : ∀ id fp, point.searched = some (id, fp) → known.point.searched = some (id, fp))
    (safe : (threadLogic Thread).Safe thread post (rest ()) { known with point := point }) :
    (threadLogic Thread).Safe thread post (Program.perform (Command.lock (.f_lock fp)) >>= rest)
      known := by
  have permitted : known.Permitted (.lock (.f_lock fp)) := ⟨free, may⟩
  exact safe_lock point permitted holds mine uncounted searched safe

theorem safe_unlock {lock : Lock} {rest : Unit → Code Result} (point : Point)
    (held : known.point.Holds lock)
    (holds : ∀ other, point.Holds other ↔ known.point.Holds other ∧ other ≠ lock)
    (mine : point.mine = known.point.mine) (uncounted : point.counted = none)
    (unsearched : point.searched = none)
    (safe : (threadLogic Thread).Safe thread post (rest ()) { known with point := point }) :
    (threadLogic Thread).Safe thread post (Program.perform (Command.unlock lock) >>= rest) known := by
  have permitted : known.Permitted (.unlock lock) := held
  apply safe_point permitted
  intro ghost state valid same response after stepped
  refine ⟨point, ?_, safe⟩
  rcases stepped with ⟨⟨_, _, isAfter⟩, history⟩
  subst same
  apply valid.quiet rfl
  · rw [history]
    exact (List.append_nil state.history).symm ▸ valid.explains
  · rw [isAfter]
    rfl
  · rw [isAfter]
    rfl
  · rw [isAfter]
    exact locks_release valid held holds
  · exact mine
  · intro fp isHeld
    rw [mine]
    exact (valid.stands thread).locked fp ((holds _).mp isHeld).1
  · rw [uncounted]
    exact nofun
  · rw [unsearched]
    exact nofun

theorem safe_getCount {rest : Int → Code Result} (point : Int → Point)
    (held : known.point.Holds (.f_lock fp)) (noMine : known.point.mine = none)
    (holds : ∀ count other, (point count).Holds other ↔ known.point.Holds other)
    (mine : ∀ count, (point count).mine = none)
    (counted : ∀ count, (point count).counted = some (fp, count))
    (searched : ∀ count, (point count).searched = known.point.searched)
    (safe : ∀ count, (threadLogic Thread).Safe thread post (rest count)
      { known with point := point count }) :
    (threadLogic Thread).Safe thread post (Program.perform (Command.getCount fp) >>= rest) known := by
  have permitted : known.Permitted (.getCount fp) := held
  apply safe_point permitted
  intro ghost state valid same count after stepped
  refine ⟨point count, ?_, safe count⟩
  rcases stepped with ⟨⟨read, isAfter⟩, history⟩
  subst same
  have stands := valid.stands thread
  have present : ghost.atomic.object.memory.heap.lookup fp ≠ none := by
    rcases stands.locked fp held with present | ⟨foo, isMine⟩
    · exact present
    · exact absurd (noMine.symm.trans isMine) nofun
  rcases Option.ne_none_iff_exists'.mp present with ⟨foo, found⟩
  have isCount : foo.f_count = count := by
    rw [valid.linked fp foo found] at read
    exact Option.some.inj read
  apply valid.quiet rfl
  · rw [history]
    exact (List.append_nil state.history).symm ▸ valid.explains
  · rw [isAfter]
  · rw [isAfter]
  · rw [isAfter]
    exact locks_keep valid (holds count)
  · exact (mine count).trans noMine.symm
  · intro other isHeld
    rw [mine, ← noMine]
    exact stands.locked other ((holds count _).mp isHeld)
  · intro other number isCounted
    rw [counted] at isCounted
    cases isCounted
    rw [found, Option.map_some, isCount]
  · intro id other isSearched
    rw [searched] at isSearched
    exact stands.searched id other isSearched

/-- An operation takes effect and leaves everything as it is. -/
theorem Valid.unchanged (valid : Valid ghost state) {after : State Thread} {operation : Operation}
    {result : Return} (called : ghost.atomic.pending thread = .called operation)
    (effect : Effect thread operation ghost.atomic.object result ghost.atomic.object)
    (memory : after.memory = state.memory) (history : after.history = state.history) :
    Valid ⟨Function.update ghost.points thread (ghost.points thread),
      ghost.effected thread ghost.atomic.object result⟩ after := by
  have stands := valid.stands thread
  have same : (ghost.effected thread ghost.atomic.object result).object = ghost.atomic.object := rfl
  apply valid.quiet same
  · rw [history]
    exact valid.effected called effect
  · rw [memory]
  · rw [memory]
  · rw [memory]
    exact locks_keep valid fun _ => Iff.rfl
  · rfl
  · exact stands.locked
  · exact stands.counted
  · exact stands.searched

/-! ## Steps at an object of one's own -/

theorem Valid.unlocked_of_mine (valid : Valid ghost state)
    (mine : (ghost.points thread).mine = some (fp, foo)) (free : ∀ fp, ¬ (ghost.points thread).Holds (.f_lock fp)) :
    state.memory.locks (.f_lock fp) = none := by
  cases holder : state.memory.locks (.f_lock fp) with
  | none => rfl
  | some other =>
      have held := (valid.locks _ _).mp holder
      rcases (valid.stands other).locked fp held with present | ⟨foo', others⟩
      · exact absurd ((valid.stands thread).own fp foo mine).2 present
      · rw [valid.apart thread other fp foo foo' mine others] at free
        exact absurd held (free fp)

theorem safe_malloc {rest : Option Address → Code Result} {id : Int}
    (isPoint : known.point = .resting) (called : known.pending = .called (.alloc id))
    (failed : (threadLogic Thread).Safe thread post (rest none)
      { known with pending := .effected (.pointer none) })
    (allocated : ∀ fp foo, (threadLogic Thread).Safe thread post (rest (some fp))
      { known with point := .building fp foo }) :
    (threadLogic Thread).Safe thread post (Program.perform Command.malloc >>= rest) known := by
  have permitted : known.Permitted .malloc := isPoint
  apply safe_moves permitted
  intro ghost state valid same response after stepped
  subst same
  change ghost.points thread = .resting at isPoint
  have history : after.history = state.history := stepped.2.trans (List.append_nil _)
  rcases stepped.1 with ⟨rfl, isAfter⟩ | ⟨address, foo, rfl, fresh, isAfter⟩
  · refine ⟨_, ghost.effected thread ghost.atomic.object (.pointer none), ?_,
      (Function.update_eq_self _ _).symm, rfl, failed⟩
    exact valid.unchanged called (effect_unchanged (Or.inl rfl)) isAfter history
  · refine ⟨_, ghost.atomic, ?_, (Function.update_eq_self _ _).symm,
      (Function.update_eq_self _ _).symm, allocated address foo⟩
    apply @Valid.own _ _ _ _ _ _ _ address valid _ history
    · cases linked : ghost.atomic.object.memory.heap.lookup address with
      | none => rfl
      | some cell =>
          rw [valid.linked address cell linked] at fresh
          cases fresh
    · intro other _ cell isOthers
      rw [((valid.stands other).own address cell isOthers).1] at fresh
      cases fresh
    · intro other different
      rw [isAfter]
      exact Finmap.lookup_insert_of_ne _ different
    · rw [isAfter]
      rfl
    · rw [isAfter]
      rfl
    · intro lock
      rw [isPoint]
      rfl
    · exact fun _ held => held
    · rw [isPoint]
      exact nofun
    · rw [isAfter, lookup_store]
      rfl
    · rfl
    · rfl

/-- A step that changes nothing but an object that the thread has by itself. -/
theorem safe_own {command : Command} {rest : Response command → Code Result} (point : Point)
    (isPoint : known.point = .building fp foo) (permitted : known.Permitted command)
    (silent : command.event thread = []) (holds : ∀ lock, ¬ point.Holds lock)
    (uncounted : point.counted = none) (unsearched : point.searched = none)
    (changes : ∀ memory response after, MemoryStep thread command memory response after →
      memory.heap.lookup fp = some foo →
        (∀ other, other ≠ fp → after.heap.lookup other = memory.heap.lookup other) ∧
        after.fh = memory.fh ∧ after.locks = memory.locks ∧
        point.mine = (after.heap.lookup fp).map fun foo => (fp, foo))
    (safe : ∀ response, (threadLogic Thread).Safe thread post (rest response)
      { known with point := point }) :
    (threadLogic Thread).Safe thread post (Program.perform command >>= rest) known := by
  apply safe_point permitted
  intro ghost state valid same response after stepped
  refine ⟨point, ?_, safe response⟩
  subst same
  change ghost.points thread = .building fp foo at isPoint
  have isMine : (ghost.points thread).mine = some (fp, foo) := by
    rw [isPoint]
    rfl
  have own := (valid.stands thread).own fp foo isMine
  rcases changes state.memory response after.memory stepped.1 own.1 with ⟨heap, heads, locks, mine⟩
  have history : after.history = state.history := by
    rw [stepped.2, silent, List.append_nil]
  apply @Valid.own _ _ _ _ _ _ _ fp valid _ history own.2
  · exact fun other different cell isOthers =>
      different (valid.apart other thread fp cell foo isOthers isMine)
  · exact heap
  · exact heads
  · exact locks
  · intro lock
    rw [isPoint]
    exact iff_of_false (holds lock) id
  · exact fun _ => holds _
  · intro other cell isOther
    rw [isMine] at isOther
    cases isOther
    rfl
  · exact mine
  · exact uncounted
  · exact unsearched

theorem safe_write {command : Command} {rest : Response command → Code Result} (change : Foo → Foo)
    (isPoint : known.point = .building fp foo) (permitted : known.Permitted command)
    (silent : command.event thread = [])
    (writes : ∀ memory response after, MemoryStep thread command memory response after →
      memory.modify fp change = some after)
    (safe : ∀ response, (threadLogic Thread).Safe thread post (rest response)
      { known with point := .building fp (change foo) }) :
    (threadLogic Thread).Safe thread post (Program.perform command >>= rest) known := by
  apply safe_own (.building fp (change foo)) isPoint permitted silent (fun _ held => held) rfl rfl ?_ safe
  intro memory response after stepped found
  have written := writes memory response after stepped
  rw [modify_eq found] at written
  rw [← Option.some.inj written]
  refine ⟨fun other different => Finmap.lookup_insert_of_ne _ different, rfl, rfl, ?_⟩
  rw [lookup_store]
  rfl

theorem safe_setCount {rest : Unit → Code Result} {count : Int}
    (isPoint : known.point = .building fp foo)
    (safe : (threadLogic Thread).Safe thread post (rest ())
      { known with point := .building fp { foo with f_count := count } }) :
    (threadLogic Thread).Safe thread post (Program.perform (Command.setCount fp count) >>= rest)
      known := by
  apply safe_write (fun foo => { foo with f_count := count }) isPoint
  · exact Or.inl ⟨foo, by rw [isPoint]; rfl⟩
  · rfl
  · exact fun _ _ _ stepped => stepped
  · exact fun _ => safe

theorem safe_setId {rest : Unit → Code Result} {id : Int} (isPoint : known.point = .building fp foo)
    (safe : (threadLogic Thread).Safe thread post (rest ())
      { known with point := .building fp { foo with f_id := id } }) :
    (threadLogic Thread).Safe thread post (Program.perform (Command.setId fp id) >>= rest) known := by
  apply safe_write (fun foo => { foo with f_id := id }) isPoint
  · exact ⟨foo, isPoint⟩
  · rfl
  · exact fun _ _ _ stepped => stepped
  · exact fun _ => safe

theorem safe_mutexInit {rest : Bool → Code Result} {id : Int}
    (isPoint : known.point = .building fp foo) (called : known.pending = .called (.alloc id))
    (failed : (threadLogic Thread).Safe thread post (rest false)
      { known with pending := .effected (.pointer none) })
    (safe : (threadLogic Thread).Safe thread post (rest true) known) :
    (threadLogic Thread).Safe thread post (Program.perform (Command.mutexInit fp) >>= rest) known := by
  have permitted : known.Permitted (.mutexInit fp) := ⟨foo, isPoint⟩
  apply safe_moves permitted
  intro ghost state valid same response after stepped
  subst same
  change ghost.points thread = .building fp foo at isPoint
  have isMine : (ghost.points thread).mine = some (fp, foo) := by
    rw [isPoint]
    rfl
  have free (fp : Address) : ¬ (ghost.points thread).Holds (.f_lock fp) := by
    rw [isPoint]
    exact fun held => held
  have stands := valid.stands thread
  have history : after.history = state.history := stepped.2.trans (List.append_nil _)
  rcases stepped.1.2 with ⟨rfl, isAfter⟩ | ⟨rfl, isAfter⟩
  · refine ⟨_, ghost.effected thread ghost.atomic.object (.pointer none), ?_,
      (Function.update_eq_self _ _).symm, rfl, failed⟩
    exact valid.unchanged called (effect_unchanged (Or.inl rfl)) isAfter history
  · refine ⟨_, ghost.atomic, ?_, (Function.update_eq_self _ _).symm,
      (Function.update_eq_self _ _).symm, safe⟩
    have locks : after.memory.locks = state.memory.locks := by
      rw [isAfter, Memory.setLock]
      dsimp only
      rw [← valid.unlocked_of_mine isMine free, Function.update_eq_self]
    apply valid.quiet rfl
    · rw [history]
      exact valid.explains
    · rw [isAfter]
      rfl
    · rw [isAfter]
      rfl
    · rw [locks]
      exact locks_keep valid fun _ => Iff.rfl
    · rfl
    · exact stands.locked
    · exact stands.counted
    · exact stands.searched

theorem safe_mutexDestroy {rest : Unit → Code Result} (isPoint : known.point = .building fp foo)
    (safe : (threadLogic Thread).Safe thread post (rest ()) known) :
    (threadLogic Thread).Safe thread post (Program.perform (Command.mutexDestroy fp) >>= rest)
      known := by
  have permitted : known.Permitted (.mutexDestroy fp) := ⟨foo, isPoint⟩
  apply safe_own (.building fp foo) isPoint permitted rfl (fun _ held => held) rfl rfl
  · rintro memory response after ⟨_, _, rfl⟩ found
    refine ⟨fun _ _ => rfl, rfl, rfl, ?_⟩
    rw [found]
    rfl
  · intro _
    rw [← isPoint]
    exact safe

theorem safe_free {rest : Unit → Code Result} (isPoint : known.point = .building fp foo)
    (safe : (threadLogic Thread).Safe thread post (rest ()) { known with point := .resting }) :
    (threadLogic Thread).Safe thread post (Program.perform (Command.free fp) >>= rest) known := by
  have permitted : known.Permitted (.free fp) := ⟨foo, isPoint⟩
  apply safe_own .resting isPoint permitted rfl (fun _ held => held) rfl rfl
  · rintro memory response after ⟨_, rfl⟩ found
    refine ⟨fun other different => Finmap.lookup_erase_ne different, rfl, rfl, ?_⟩
    rw [Memory.free, Finmap.lookup_erase]
    rfl
  · exact fun _ => safe

/-! ## Steps at the chains -/

theorem safe_push {rest : Unit → Code Result} {id : Int} {next : Option Address}
    (isPoint : known.point = .pushing fp ⟨1, id, next⟩) (called : known.pending = .called (.alloc id))
    (safe : (threadLogic Thread).Safe thread post (rest ())
      ⟨.hashing, known.owned.change (.alloc id) (.pointer (some fp)),
        .effected (.pointer (some fp))⟩) :
    (threadLogic Thread).Safe thread post (Program.perform (Command.push fp (HASH id)) >>= rest)
      known := by
  have permitted : known.Permitted (.push fp (HASH id)) := ⟨_, isPoint⟩
  apply safe_moves permitted
  intro ghost state valid same response after stepped
  subst same
  exact ⟨_, _, valid.push isPoint called stepped, rfl, rfl, safe⟩

theorem Valid.search (valid : Valid ghost state) (id : Int) :
    state.memory.search id = ghost.atomic.object.memory.search id := by
  rcases valid.sound.chained with ⟨chains, chained⟩
  have path : state.memory.heap.Path Foo.f_next (state.memory.fh (HASH id)) (chains (HASH id)) := by
    rw [valid.heads]
    apply (chained.path (HASH id)).of_same_next
    exact fun address _ cell isCell => ⟨cell, valid.linked address cell isCell, rfl⟩
  rw [chained.search, Memory.search, searchFrom_eq path path.length_le_card]
  congr 1
  apply firstWith_congr
  intro address member
  have present := Finmap.lookup_isSome.mpr ((chained.path (HASH id)).mem_keys address member)
  rcases Option.isSome_iff_exists.mp present with ⟨cell, isCell⟩
  rw [isCell, valid.linked address cell isCell]

theorem safe_search {rest : Option Address → Code Result} {id : Int}
    (isPoint : known.point = .hashing) (called : known.pending = .called (.find id))
    (missing : (threadLogic Thread).Safe thread post (rest none)
      { known with pending := .effected (.pointer none) })
    (found : ∀ fp, (threadLogic Thread).Safe thread post (rest (some fp))
      { known with point := .found id fp }) :
    (threadLogic Thread).Safe thread post (Program.perform (Command.search id) >>= rest) known := by
  have permitted : known.Permitted (.search id) := isPoint
  apply safe_moves permitted
  intro ghost state valid same response after stepped
  subst same
  change ghost.points thread = .hashing at isPoint
  have history : after.history = state.history := stepped.2.trans (List.append_nil _)
  have searched := (valid.search id).symm.trans stepped.1.1
  have isAfter : after.memory = state.memory := stepped.1.2
  cases response with
  | none =>
      refine ⟨_, ghost.effected thread ghost.atomic.object (.pointer none), ?_,
        (Function.update_eq_self _ _).symm, rfl, missing⟩
      exact valid.unchanged called
        (effect_unchanged (Or.inr ⟨rfl, valid.sound.unlocked _, searched⟩)) isAfter history
  | some fp =>
      refine ⟨_, ghost.atomic, ?_, (Function.update_eq_self _ _).symm,
        (Function.update_eq_self _ _).symm, found fp⟩
      apply valid.quiet rfl
      · rw [history]
        exact valid.explains
      · rw [isAfter]
      · rw [isAfter]
      · rw [isAfter]
        apply locks_keep valid
        intro lock
        rw [isPoint]
        rfl
      · rw [isPoint]
        rfl
      · exact fun _ held => absurd held f_lock_ne_hashlock
      · exact nofun
      · intro id' fp' isSearched
        cases isSearched
        exact searched

/-- The count is changed under the lock of the object. -/
theorem safe_recount {rest : Unit → Code Result} {operation : Operation} {old count : Int}
    (result : Return) (point : Point) (held : known.point.Holds (.f_lock fp))
    (noMine : known.point.mine = none) (counted : known.point.counted = some (fp, old))
    (called : known.pending = .called operation)
    (effect : ∀ (object : Object Thread) foo, (∀ lock, object.memory.locks lock = none) →
      object.memory.heap.lookup fp = some foo → foo.f_count = old →
      (∀ id, known.point.searched = some (id, fp) → object.memory.search id = some (some fp)) →
      Effect thread operation object result
        (object.recounted thread operation result fp foo count))
    (others : ∀ other, other ≠ fp →
      known.owned.change operation result other = known.owned other)
    (isCount : count = old + ((known.owned.change operation result fp : Int) - known.owned fp))
    (positive : 1 ≤ old → 1 ≤ count)
    (holds : ∀ lock, point.Holds lock ↔ known.point.Holds lock) (mine : point.mine = none)
    (uncounted : point.counted = none)
    (searched : ∀ id fp, point.searched = some (id, fp) → known.point.searched = some (id, fp))
    (safe : (threadLogic Thread).Safe thread post (rest ())
      ⟨point, known.owned.change operation result, .effected result⟩) :
    (threadLogic Thread).Safe thread post (Program.perform (Command.setCount fp count) >>= rest)
      known := by
  have permitted : known.Permitted (.setCount fp count) := Or.inr held
  apply safe_moves permitted
  intro ghost state valid same response after stepped
  subst same
  have stands := valid.stands thread
  rcases Option.map_eq_some_iff.mp (stands.counted fp old counted) with ⟨foo, found, isOld⟩
  have sound : Sound (ghost.atomic.object.recounted thread operation result fp foo count) :=
    valid.sound.recounted found others (isOld ▸ isCount)
      (positive (isOld ▸ (valid.sound.counted fp foo found).2))
  have moved := effect ghost.atomic.object foo valid.sound.unlocked found isOld
    fun id isSearched => stands.searched id fp isSearched
  exact ⟨_, _, valid.recount found held noMine called moved sound stepped holds mine uncounted
    searched, rfl, rfl, safe⟩

theorem safe_unlink {rest : Unit → Code Result} {id : Option Int}
    (isPoint : known.point = .both fp id (some 1)) (owns : 0 < known.owned fp)
    (called : known.pending = .called (.rele fp))
    (safe : ∀ foo, (threadLogic Thread).Safe thread post (rest ())
      ⟨.cutting fp foo, known.owned.change (.rele fp) .void, .effected .void⟩) :
    (threadLogic Thread).Safe thread post (Program.perform (Command.unlink fp) >>= rest) known := by
  have permitted : known.Permitted (.unlink fp) := ⟨id, isPoint⟩
  apply safe_moves permitted
  intro ghost state valid same response after stepped
  subst same
  change ghost.points thread = .both fp id (some 1) at isPoint
  have counted : (ghost.points thread).counted = some (fp, 1) := by
    rw [isPoint]
    rfl
  rcases Option.map_eq_some_iff.mp ((valid.stands thread).counted fp 1 counted) with
    ⟨foo, found, last⟩
  rcases valid.unlink isPoint found last owns called stepped with ⟨before, valid'⟩
  exact ⟨⟨.cutting fp foo, _, _⟩, _, valid', rfl, rfl, safe foo⟩

/-! ## Calls and their results -/

/-- A step that only the history shows. -/
theorem Valid.event (valid : Valid ghost state) {after : State Thread} {pending : Pending Operation Return}
    {event : Foundation.Event Thread Operation Return}
    (moves : AtomicObject.Moves Effect ghost.atomic (.event event)
      (ghost.atomic.setPending thread pending))
    (memory : after.memory = state.memory) (history : after.history = state.history ++ [event]) :
    Valid ⟨Function.update ghost.points thread (ghost.points thread),
      ghost.atomic.setPending thread pending⟩ after := by
  have stands := valid.stands thread
  have same : (ghost.atomic.setPending thread pending).object = ghost.atomic.object := rfl
  apply valid.quiet same
  · rw [history]
    exact valid.explains.snoc moves
  · rw [memory]
  · rw [memory]
  · rw [memory]
    exact locks_keep valid fun _ => Iff.rfl
  · rfl
  · exact stands.locked
  · exact stands.counted
  · exact stands.searched

theorem safe_invoke {rest : Unit → Code Result} {operation : Operation}
    (isPoint : known.point = .resting) (idle : known.pending = .idle)
    (may : operation.Permitted known.owned)
    (safe : (threadLogic Thread).Safe thread post (rest ())
      { known with pending := .called operation }) :
    (threadLogic Thread).Safe thread post (Program.perform (Command.invoke operation) >>= rest)
      known := by
  have permitted : known.Permitted (.invoke operation) := ⟨isPoint, idle, may⟩
  apply safe_moves permitted
  intro ghost state valid same response after stepped
  subst same
  exact ⟨_, ghost.atomic.setPending thread (.called operation),
    valid.event (.invoke operation idle) stepped.1 stepped.2,
    (Function.update_eq_self _ _).symm, rfl, safe⟩

theorem safe_respond {rest : Unit → Code Result} {result : Return}
    (isPoint : known.point = .resting) (effected : known.pending = .effected result)
    (safe : (threadLogic Thread).Safe thread post (rest ()) { known with pending := .idle }) :
    (threadLogic Thread).Safe thread post (Program.perform (Command.respond result) >>= rest)
      known := by
  have permitted : known.Permitted (.respond result) := ⟨isPoint, effected⟩
  apply safe_moves permitted
  intro ghost state valid same response after stepped
  subst same
  exact ⟨_, ghost.atomic.setPending thread .idle, valid.event (.respond effected) stepped.1 stepped.2,
    (Function.update_eq_self _ _).symm, rfl, safe⟩

end Steps

end Apue.Threads
