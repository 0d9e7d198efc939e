import Apue.Foundation.AtomicSteps
import Apue.Threads.Chains
import Mathlib.Algebra.Order.BigOperators.Group.Finset

/-! # The operations of `mutex3.c` as single steps

Between the operations every object is on its chain, and its count is the number of
references to it.
-/

namespace Apue.Threads

open Apue.Foundation

variable {Thread : Type} {heap other : Heap Foo} {fp : Address} {foo : Foo} {id : Int}
  {before after : List Address} {memory : Memory Thread} {chains : Nat → List Address}

/-- All objects are on the chains of their ids. -/
structure Chained (memory : Memory Thread) (chains : Nat → List Address) : Prop where
  path : ∀ idx, memory.heap.Path Foo.f_next (memory.fh idx) (chains idx)
  hashed : ∀ idx fp foo, fp ∈ chains idx → memory.heap.lookup fp = some foo → HASH foo.f_id = idx
  every : ∀ fp foo, memory.heap.lookup fp = some foo → fp ∈ chains (HASH foo.f_id)

theorem Chained.search (chained : Chained memory chains) (id : Int) :
    memory.search id = some (firstWith memory.heap id (chains (HASH id))) :=
  searchFrom_eq (chained.path _) (chained.path _).length_le_card

theorem Chained.recount (chained : Chained memory chains) (found : memory.heap.lookup fp = some foo)
    (count : Int) : Chained (memory.store fp { foo with f_count := count }) chains := by
  have same (address : Address) (cell : Foo) (isCell : memory.heap.lookup address = some cell) :
      ∃ cell', (memory.store fp { foo with f_count := count }).heap.lookup address = some cell' ∧
        cell'.f_next = cell.f_next ∧ cell'.f_id = cell.f_id := by
    by_cases isThis : address = fp
    · subst isThis
      rw [found] at isCell
      cases isCell
      exact ⟨_, Finmap.lookup_insert _, rfl, rfl⟩
    · exact ⟨cell, (Finmap.lookup_insert_of_ne _ isThis).trans isCell, rfl, rfl⟩
  have back (address : Address) (cell' : Foo)
      (isCell : (memory.store fp { foo with f_count := count }).heap.lookup address = some cell') :
      ∃ cell, memory.heap.lookup address = some cell ∧ cell'.f_id = cell.f_id := by
    by_cases isThis : address = fp
    · subst isThis
      rw [Memory.store, Finmap.lookup_insert] at isCell
      cases isCell
      exact ⟨foo, found, rfl⟩
    · rw [Memory.store, Finmap.lookup_insert_of_ne _ isThis] at isCell
      exact ⟨cell', isCell, rfl⟩
  constructor
  · intro idx
    apply (chained.path idx).of_same_next
    intro address _ cell isCell
    rcases same address cell isCell with ⟨cell', isCell', next, _⟩
    exact ⟨cell', isCell', next⟩
  · intro idx address cell' member isCell'
    rcases back address cell' isCell' with ⟨cell, isCell, sameId⟩
    rw [sameId]
    exact chained.hashed idx address cell member isCell
  · intro address cell' isCell'
    rcases back address cell' isCell' with ⟨cell, isCell, sameId⟩
    rw [sameId]
    exact chained.every address cell isCell

theorem Chained.search_recount (chained : Chained memory chains)
    (found : memory.heap.lookup fp = some foo) (count : Int) (id : Int) :
    (memory.store fp { foo with f_count := count }).search id = memory.search id := by
  rw [(chained.recount found count).search, chained.search]
  congr 1
  apply firstWith_congr
  intro address _
  by_cases isThis : address = fp
  · rw [isThis, Memory.store, Finmap.lookup_insert, found]
    rfl
  · rw [Memory.store, Finmap.lookup_insert_of_ne _ isThis]

/-- A new object at the head of its chain. -/
theorem Chained.push (chained : Chained memory chains) (fresh : memory.heap.lookup fp = none)
    (count : Int) (id : Int) :
    Chained ((memory.store fp ⟨count, id, memory.fh (HASH id)⟩).setHead (HASH id) (some fp))
      (Function.update chains (HASH id) (fp :: chains (HASH id))) := by
  have others (address : Address) (cell : Foo) (isCell : memory.heap.lookup address = some cell) :
      (memory.heap.insert fp ⟨count, id, memory.fh (HASH id)⟩).lookup address = some cell := by
    rw [Finmap.lookup_insert_of_ne]
    · exact isCell
    · intro same
      rw [same, fresh] at isCell
      cases isCell
  have kept (idx : Nat) :
      Heap.Path (memory.heap.insert fp ⟨count, id, memory.fh (HASH id)⟩) Foo.f_next
        (memory.fh idx) (chains idx) :=
    (chained.path idx).of_same_next fun address _ cell isCell =>
      ⟨cell, others address cell isCell, rfl⟩
  have unlinked (idx : Nat) : fp ∉ chains idx := by
    intro member
    have present := Finmap.lookup_isSome.mpr ((chained.path idx).mem_keys fp member)
    rw [fresh] at present
    cases present
  constructor
  · intro idx
    dsimp only [Memory.setHead, Memory.store]
    by_cases here : idx = HASH id
    · rw [here, Function.update_self, Function.update_self]
      exact ⟨rfl, _, Finmap.lookup_insert _, kept (HASH id)⟩
    · rw [Function.update_of_ne here, Function.update_of_ne here]
      exact kept idx
  · intro idx address cell member isCell
    dsimp only [Memory.setHead, Memory.store] at isCell
    by_cases isThis : address = fp
    · subst isThis
      rw [Finmap.lookup_insert] at isCell
      cases isCell
      by_contra elsewhere
      rw [Function.update_of_ne (Ne.symm elsewhere)] at member
      exact unlinked idx member
    · rw [Finmap.lookup_insert_of_ne _ isThis] at isCell
      by_cases here : idx = HASH id
      · rw [here, Function.update_self] at member
        rw [here]
        exact chained.hashed _ address cell ((List.mem_cons.mp member).resolve_left isThis) isCell
      · rw [Function.update_of_ne here] at member
        exact chained.hashed idx address cell member isCell
  · intro address cell isCell
    dsimp only [Memory.setHead, Memory.store] at isCell
    by_cases isThis : address = fp
    · subst isThis
      rw [Finmap.lookup_insert] at isCell
      cases isCell
      rw [Function.update_self]
      exact List.mem_cons_self
    · rw [Finmap.lookup_insert_of_ne _ isThis] at isCell
      have member := chained.every address cell isCell
      by_cases here : HASH cell.f_id = HASH id
      · rw [here, Function.update_self]
        rw [here] at member
        exact List.mem_cons_of_mem _ member
      · rw [Function.update_of_ne here]
        exact member

theorem cutOut_lookup (memory : Memory Thread) (idx : Nat) (before : List Address)
    (next : Option Address) (address : Address) :
    (cutOut memory idx before next).heap.lookup address = (memory.heap.lookup address).map fun cell =>
      { cell with f_next := if before.getLast? = some address then next else cell.f_next } := by
  rw [cutOut]
  cases before.getLast? with
  | none =>
      rw [Memory.setHead]
      cases memory.heap.lookup address <;> rfl
  | some tfp =>
      dsimp only
      cases isPrevious : memory.heap.lookup tfp with
      | none =>
          by_cases same : address = tfp
          · rw [same, isPrevious]
            rfl
          · cases memory.heap.lookup address with
            | none => rfl
            | some cell => simp [Ne.symm same]
      | some previous =>
          dsimp only [Memory.store]
          by_cases same : address = tfp
          · rw [same, Finmap.lookup_insert, isPrevious]
            simp
          · rw [Finmap.lookup_insert_of_ne _ same]
            cases memory.heap.lookup address with
            | none => rfl
            | some cell => simp [Ne.symm same]

theorem cutOut_fh (memory : Memory Thread) (idx : Nat) (before : List Address)
    (next : Option Address) :
    (cutOut memory idx before next).fh =
      if before = [] then Function.update memory.fh idx next else memory.fh := by
  rw [cutOut]
  cases before with
  | nil => rfl
  | cons tfp before =>
      rw [List.getLast?_eq_getLast_of_ne_nil (List.cons_ne_nil tfp before),
        if_neg (List.cons_ne_nil tfp before)]
      dsimp only
      split <;> rfl

theorem cutOut_locks (memory : Memory Thread) (idx : Nat) (before : List Address)
    (next : Option Address) : (cutOut memory idx before next).locks = memory.locks := by
  rw [cutOut]
  split
  · rfl
  · split <;> rfl

/-- The chain around an object that was taken out. -/
theorem path_cutOut {start : Option Address} (found : heap.lookup fp = some foo)
    (path : heap.Path Foo.f_next start (before ++ fp :: after))
    (distinct : (before ++ fp :: after).Nodup)
    (lookups : ∀ address ∈ before ++ after, other.lookup address = (heap.lookup address).map
      fun cell => { cell with
        f_next := if before.getLast? = some address then foo.f_next else cell.f_next }) :
    other.Path Foo.f_next (if before = [] then foo.f_next else start) (before ++ after) := by
  induction before generalizing start with
  | nil =>
      rw [if_pos rfl]
      apply (path_append path found).of_same_next
      intro address member cell isCell
      refine ⟨cell, ?_, rfl⟩
      rw [lookups address member, isCell]
      rfl
  | cons first before hypothesis =>
      rcases path with ⟨rfl, cell, isCell, rest⟩
      have later := hypothesis rest (List.nodup_cons.mp distinct).2 (by
        intro address member
        have notFirst : address ≠ first := by
          intro same
          subst same
          apply (List.nodup_cons.mp distinct).1
          rcases List.mem_append.mp member with inFront | behind
          · exact List.mem_append_left _ inFront
          · exact List.mem_append_right _ (List.mem_cons_of_mem _ behind)
        rw [lookups address (List.mem_cons_of_mem _ member)]
        congr 1
        funext cell
        congr 1
        cases before with
        | nil => simp [Ne.symm notFirst]
        | cons second before => rw [List.getLast?_cons_cons])
      rw [if_neg (List.cons_ne_nil _ _)]
      refine ⟨rfl, _, by rw [lookups first List.mem_cons_self, isCell]; rfl, ?_⟩
      cases before with
      | nil => simpa using later
      | cons second before =>
          rw [if_neg (List.cons_ne_nil _ _)] at later
          have notLast : (second :: before).getLast? ≠ some first := by
            intro isLast
            exact (List.nodup_cons.mp distinct).1
              (List.mem_append_left _ (List.mem_of_getLast? isLast))
          rw [List.getLast?_cons_cons]
          dsimp only
          rw [if_neg notLast]
          exact later

theorem Chained.cutOut (chained : Chained memory chains) (found : memory.heap.lookup fp = some foo)
    (split : chains (HASH foo.f_id) = before ++ fp :: after) :
    Chained ((Threads.cutOut memory (HASH foo.f_id) before foo.f_next).free fp)
      (Function.update chains (HASH foo.f_id) (before ++ after)) := by
  let idx := HASH foo.f_id
  have path := chained.path idx
  have distinct := path.nodup
  rw [split] at path distinct
  have apart : fp ∉ before ++ after := (List.nodup_middle.mp distinct).notMem
  have lookups (address : Address) (other : address ≠ fp) :
      ((Threads.cutOut memory idx before foo.f_next).free fp).heap.lookup address =
        (memory.heap.lookup address).map fun cell => { cell with
          f_next := if before.getLast? = some address then foo.f_next else cell.f_next } := by
    rw [Memory.free, Finmap.lookup_erase_ne other, cutOut_lookup]
  have back (address : Address) (cell' : Foo) (isCell :
      ((Threads.cutOut memory idx before foo.f_next).free fp).heap.lookup address = some cell') :
      address ≠ fp ∧ ∃ cell, memory.heap.lookup address = some cell ∧ cell'.f_id = cell.f_id := by
    have other : address ≠ fp := by
      intro same
      rw [same, Memory.free, Finmap.lookup_erase] at isCell
      cases isCell
    rw [lookups address other] at isCell
    rcases Option.map_eq_some_iff.mp isCell with ⟨cell, isOld, rfl⟩
    exact ⟨other, cell, isOld, rfl⟩
  have members (i : Nat) (address : Address) :
      address ∈ Function.update chains idx (before ++ after) i ↔ address ∈ chains i ∧ address ≠ fp := by
    by_cases here : i = idx
    · rw [here, Function.update_self, split]
      constructor
      · intro member
        refine ⟨?_, fun same => apart (same ▸ member)⟩
        rcases List.mem_append.mp member with inFront | behind
        · exact List.mem_append_left _ inFront
        · exact List.mem_append_right _ (List.mem_cons_of_mem _ behind)
      · rintro ⟨member, other⟩
        rcases List.mem_append.mp member with inFront | behind
        · exact List.mem_append_left _ inFront
        · exact List.mem_append_right _ ((List.mem_cons.mp behind).resolve_left other)
    · rw [Function.update_of_ne here]
      refine ⟨fun member => ⟨member, fun same => here ?_⟩, fun both => both.1⟩
      rw [same] at member
      exact (chained.hashed i fp foo member found).symm
  constructor
  · intro i
    have isHead : ((Threads.cutOut memory idx before foo.f_next).free fp).fh =
        if before = [] then Function.update memory.fh idx foo.f_next else memory.fh :=
      cutOut_fh memory idx before foo.f_next
    rw [isHead]
    by_cases here : i = idx
    · rw [here, Function.update_self]
      have cut := path_cutOut found path distinct fun address member =>
        lookups address fun same => apart (same ▸ member)
      split
      · rename_i empty
        rw [if_pos empty] at cut
        rw [Function.update_self]
        exact cut
      · rename_i nonempty
        rw [if_neg nonempty] at cut
        exact cut
    · have sameHead : (if before = [] then Function.update memory.fh idx foo.f_next
          else memory.fh) i = memory.fh i := by
        split
        · exact Function.update_of_ne here _ _
        · rfl
      rw [sameHead, Function.update_of_ne here]
      apply (chained.path i).of_same_next
      intro address member cell isCell
      have other : address ≠ fp := by
        intro same
        rw [same] at member
        exact here (chained.hashed i fp foo member found).symm
      refine ⟨_, by rw [lookups address other, isCell]; rfl, ?_⟩
      have notLast : before.getLast? ≠ some address := by
        intro isLast
        have inOther : address ∈ chains idx := by
          rw [split]
          exact List.mem_append_left _ (List.mem_of_getLast? isLast)
        exact here ((chained.hashed i address cell member isCell).symm.trans
          (chained.hashed idx address cell inOther isCell))
      dsimp only
      rw [if_neg notLast]
  · intro i address cell' member isCell'
    rcases back address cell' isCell' with ⟨_, cell, isCell, sameId⟩
    rw [sameId]
    exact chained.hashed i address cell ((members i address).mp member).1 isCell
  · intro address cell' isCell'
    rcases back address cell' isCell' with ⟨other, cell, isCell, sameId⟩
    rw [sameId]
    exact (members _ address).mpr ⟨chained.every address cell isCell, other⟩

/-! ## Steps of an operation that runs alone -/

section Alone

variable {thread : Thread} {Result : Type} {value : Result} {last : Memory Thread}

/-- One step of an operation, and the rest. -/
theorem runs_call {command : Command} {rest : Response command → Code Result}
    {response : Response command} {between : Memory Thread} (silent : command.event thread = [])
    (stepped : MemoryStep thread command memory response between)
    (continued : Program.Runs (Step thread) (rest response) ⟨between, []⟩ value ⟨last, []⟩) :
    Program.Runs (Step thread) (Program.perform command >>= rest) ⟨memory, []⟩ value ⟨last, []⟩ :=
  .call ⟨stepped, by rw [silent]; rfl⟩ continued

theorem modify_eq (found : memory.heap.lookup fp = some foo) (change : Foo → Foo) :
    memory.modify fp change = some (memory.store fp (change foo)) := by
  rw [Memory.modify, found]
  rfl

theorem push_eq {idx : Nat} (found : memory.heap.lookup fp = some foo) :
    memory.push fp idx =
      some ((memory.store fp { foo with f_next := memory.fh idx }).setHead idx (some fp)) := by
  rw [Memory.push, modify_eq found]
  rfl

theorem lookup_store (memory : Memory Thread) (fp : Address) (foo : Foo) :
    (memory.store fp foo).heap.lookup fp = some foo := Finmap.lookup_insert _

theorem ne_none_of_eq (found : memory.heap.lookup fp = some foo) : memory.heap.lookup fp ≠ none := by
  rw [found]
  exact Option.some_ne_none foo

section Rest

variable {rest : Unit → Code Result}

theorem runs_lock {lock : Lock} (open_ : memory.locks lock = none)
    (allocated : ∀ fp, lock = .f_lock fp → memory.heap.lookup fp ≠ none)
    (continued : Program.Runs (Step thread) (rest ()) ⟨memory.setLock lock (some thread), []⟩ value
      ⟨last, []⟩) :
    Program.Runs (Step thread) (Program.perform (Command.lock lock) >>= rest) ⟨memory, []⟩ value
      ⟨last, []⟩ :=
  @runs_call _ _ _ _ _ _ (.lock lock) _ () _ rfl ⟨allocated, open_, rfl⟩ continued

theorem runs_unlock {lock : Lock} (mine : memory.locks lock = some thread)
    (allocated : ∀ fp, lock = .f_lock fp → memory.heap.lookup fp ≠ none)
    (continued : Program.Runs (Step thread) (rest ()) ⟨memory.setLock lock none, []⟩ value
      ⟨last, []⟩) :
    Program.Runs (Step thread) (Program.perform (Command.unlock lock) >>= rest) ⟨memory, []⟩ value
      ⟨last, []⟩ :=
  @runs_call _ _ _ _ _ _ (.unlock lock) _ () _ rfl ⟨allocated, mine, rfl⟩ continued

theorem runs_setCount {count : Int} (found : memory.heap.lookup fp = some foo)
    (continued : Program.Runs (Step thread) (rest ())
      ⟨memory.store fp { foo with f_count := count }, []⟩ value ⟨last, []⟩) :
    Program.Runs (Step thread) (Program.perform (Command.setCount fp count) >>= rest) ⟨memory, []⟩
      value ⟨last, []⟩ :=
  @runs_call _ _ _ _ _ _ (.setCount fp count) _ () _ rfl (modify_eq found _) continued

end Rest

theorem runs_getCount {rest : Int → Code Result} (found : memory.heap.lookup fp = some foo)
    (continued : Program.Runs (Step thread) (rest foo.f_count) ⟨memory, []⟩ value ⟨last, []⟩) :
    Program.Runs (Step thread) (Program.perform (Command.getCount fp) >>= rest) ⟨memory, []⟩ value
      ⟨last, []⟩ :=
  @runs_call _ _ _ _ _ _ (.getCount fp) _ foo.f_count _ rfl
    ⟨congrArg (Option.map Foo.f_count) found, rfl⟩ continued

end Alone

/-! ## Effects -/

/-- The count of an object after an operation. -/
def Object.recounted [DecidableEq Thread] (object : Object Thread) (thread : Thread)
    (operation : Operation) (result : Return) (fp : Address) (foo : Foo) (count : Int) :
    Object Thread where
  memory := object.memory.store fp { foo with f_count := count }
  owned := Function.update object.owned thread ((object.owned thread).change operation result)

def Object.allocated [DecidableEq Thread] (object : Object Thread) (thread : Thread) (id : Int)
    (fp : Address) : Object Thread where
  memory := (object.memory.store fp ⟨1, id, object.memory.fh (HASH id)⟩).setHead (HASH id) (some fp)
  owned := Function.update object.owned thread
    ((object.owned thread).change (.alloc id) (.pointer (some fp)))

def Object.removed [DecidableEq Thread] (object : Object Thread) (thread : Thread) (fp : Address)
    (foo : Foo) (before : List Address) : Object Thread where
  memory := (cutOut object.memory (HASH foo.f_id) before foo.f_next).free fp
  owned := Function.update object.owned thread ((object.owned thread).change (.rele fp) .void)

section Effects

variable [DecidableEq Thread] {thread : Thread} {object : Object Thread} {result : Return}

omit [DecidableEq Thread] in
theorem locks_setLock (memory : Memory Thread) (lock : Lock) (holder : Option Thread) :
    (memory.setLock lock holder).locks lock = holder :=
  Function.update_self _ _ _

omit [DecidableEq Thread] in
theorem locks_setLock_of_ne {lock other : Lock} (different : other ≠ lock) (holder : Option Thread) :
    (memory.setLock lock holder).locks other = memory.locks other :=
  Function.update_of_ne different _ _

theorem f_lock_ne_hashlock : Lock.f_lock fp ≠ .hashlock := Lock.noConfusion

omit [DecidableEq Thread] in
/-- A lock that was free before an operation is free again behind it. -/
theorem unlocked (lock : Lock) (holder : Option Thread) (locks : Lock → Option Thread)
    (open_ : locks lock = none) :
    Function.update (Function.update locks lock holder) lock none = locks := by
  rw [Function.update_idem, ← open_, Function.update_eq_self]

theorem effect_unchanged {operation : Operation}
    (fails : operation = .alloc id ∨
      operation = .find id ∧ object.memory.locks .hashlock = none ∧ object.memory.search id = some none) :
    Effect thread operation object (.pointer none) object := by
  have same : object.owned = Function.update object.owned thread (object.owned thread) :=
    (Function.update_eq_self _ _).symm
  rcases fails with rfl | ⟨rfl, open_, searched⟩
  · refine ⟨?_, same⟩
    refine @runs_call _ _ _ _ _ _ .malloc _ none _ rfl (Or.inl ⟨rfl, rfl⟩) ?_
    exact .done _ _
  · refine ⟨?_, same⟩
    refine runs_lock open_ nofun ?_
    refine @runs_call _ _ _ _ _ _ (.search id) _ none _ rfl ⟨searched, rfl⟩ ?_
    refine runs_unlock (locks_setLock object.memory .hashlock (some thread)) nofun ?_
    rw [Memory.setLock, Memory.setLock, unlocked _ _ _ open_]
    exact .done _ _

theorem effect_hold (open_ : object.memory.locks .hashlock = none)
    (found : object.memory.heap.lookup fp = some foo) :
    Effect thread (.hold fp) object .void
      (object.recounted thread (.hold fp) .void fp foo (foo.f_count + 1)) := by
  refine ⟨?_, rfl⟩
  refine runs_lock open_ nofun ?_
  refine runs_getCount found ?_
  refine runs_setCount found ?_
  refine runs_unlock (locks_setLock object.memory .hashlock (some thread)) nofun ?_
  simp only [Memory.setLock, Memory.store, unlocked _ _ _ open_]
  exact .done _ _

theorem effect_find (open_ : object.memory.locks .hashlock = none)
    (found : object.memory.heap.lookup fp = some foo)
    (searched : object.memory.search id = some (some fp)) :
    Effect thread (.find id) object (.pointer (some fp))
      (object.recounted thread (.find id) (.pointer (some fp)) fp foo (foo.f_count + 1)) := by
  refine ⟨?_, rfl⟩
  refine runs_lock open_ nofun ?_
  refine @runs_call _ _ _ _ _ _ (.search id) _ (some fp) _ rfl ⟨searched, rfl⟩ ?_
  refine runs_getCount found ?_
  refine runs_setCount found ?_
  refine runs_unlock (locks_setLock object.memory .hashlock (some thread)) nofun ?_
  simp only [Memory.setLock, Memory.store, unlocked _ _ _ open_]
  exact .done _ _

omit [DecidableEq Thread] in
theorem store_store (memory : Memory Thread) (fp : Address) (first second : Foo) :
    (memory.store fp first).store fp second = memory.store fp second := by
  rw [Memory.store, Memory.store, Memory.store, Finmap.insert_insert]

omit [DecidableEq Thread] in
theorem setLock_same {lock : Lock} {holder : Option Thread} (same : memory.locks lock = holder) :
    memory.setLock lock holder = memory := by
  rw [Memory.setLock, ← same, Function.update_eq_self]

omit [DecidableEq Thread] in
/-- Two memories with the same chains, objects and locks. -/
theorem memory_ext {left right : Memory Thread} (heads : left.fh = right.fh)
    (objects : ∀ fp, left.heap.lookup fp = right.heap.lookup fp)
    (locks : ∀ lock, left.locks lock = right.locks lock) : left = right := by
  cases left
  cases right
  cases heads
  cases Finmap.ext_lookup objects
  cases funext locks
  rfl

theorem effect_alloc (open_ : ∀ lock, object.memory.locks lock = none)
    (fresh : object.memory.heap.lookup fp = none) :
    Effect thread (.alloc id) object (.pointer (some fp)) (object.allocated thread id fp) := by
  refine ⟨?_, rfl⟩
  let foo : Foo := ⟨0, id, none⟩
  refine @runs_call _ _ _ _ _ _ .malloc _ (some fp) _ rfl (Or.inr ⟨fp, foo, rfl, fresh, rfl⟩) ?_
  refine runs_setCount (lookup_store _ _ _) ?_
  refine @runs_call _ _ _ _ _ _ (.setId fp id) _ () _ rfl (modify_eq (lookup_store _ _ _) _) ?_
  refine @runs_call _ _ _ _ _ _ (.mutexInit fp) _ true _ rfl
    ⟨ne_none_of_eq (lookup_store _ _ _), Or.inr ⟨rfl, rfl⟩⟩ ?_
  have unlockedFirst : (object.memory.store fp ⟨1, id, none⟩).locks (.f_lock fp) = none := open_ _
  rw [store_store, store_store]
  have initialized : (object.memory.store fp ⟨1, id, none⟩).setLock (.f_lock fp) none =
      object.memory.store fp ⟨1, id, none⟩ := setLock_same unlockedFirst
  dsimp only [foo]
  rw [initialized]
  refine runs_lock (open_ .hashlock) nofun ?_
  let built : Foo := ⟨1, id, object.memory.fh (HASH id)⟩
  let locked := (object.memory.store fp ⟨1, id, none⟩).setLock .hashlock (some thread)
  let pushed := (locked.store fp built).setHead (HASH id) (some fp)
  have stored : locked.heap.lookup fp = some ⟨1, id, none⟩ := lookup_store _ _ _
  have pushes : locked.push fp (HASH id) = some pushed := push_eq stored
  refine @runs_call _ _ _ _ _ _ (.push fp (HASH id)) _ () _ rfl pushes ?_
  have allocated : pushed.heap.lookup fp = some built := lookup_store _ _ _
  have free : pushed.locks (.f_lock fp) = none :=
    (@locks_setLock_of_ne _ object.memory _ _ f_lock_ne_hashlock (some thread)).trans (open_ _)
  refine runs_lock free (fun _ same => by cases same; exact ne_none_of_eq allocated) ?_
  refine runs_unlock ?_ nofun ?_
  · exact (locks_setLock_of_ne f_lock_ne_hashlock.symm _).trans
      (locks_setLock object.memory .hashlock (some thread))
  refine runs_unlock ?_ (fun _ same => by cases same; exact ne_none_of_eq allocated) ?_
  · exact (locks_setLock_of_ne f_lock_ne_hashlock _).trans (locks_setLock pushed _ _)
  have same : ((pushed.setLock (.f_lock fp) (some thread)).setLock .hashlock none).setLock (.f_lock fp)
      none = (object.allocated thread id fp).memory := by
    apply memory_ext
    · rfl
    · intro address
      have again := store_store object.memory fp ⟨1, id, none⟩ built
      exact congrArg (fun memory => memory.heap.lookup address) again
    · intro lock
      change _ = object.memory.locks lock
      rw [open_ lock]
      by_cases here : lock = .f_lock fp
      · rw [here]
        exact locks_setLock _ _ _
      · rw [locks_setLock_of_ne here]
        by_cases there : lock = .hashlock
        · rw [there]
          exact locks_setLock _ _ _
        · rw [locks_setLock_of_ne there, locks_setLock_of_ne here]
          exact (@locks_setLock_of_ne _ object.memory _ _ there (some thread)).trans (open_ _)
  rw [same]
  exact .done _ _

theorem effect_rele (open_ : object.memory.locks .hashlock = none)
    (found : object.memory.heap.lookup fp = some foo) (shared : foo.f_count ≠ 1) :
    Effect thread (.rele fp) object .void
      (object.recounted thread (.rele fp) .void fp foo (foo.f_count - 1)) := by
  refine ⟨?_, rfl⟩
  refine runs_lock open_ nofun ?_
  refine runs_getCount found ?_
  refine runs_setCount found ?_
  have more : ¬ foo.f_count - 1 = 0 := by omega
  rw [if_neg more]
  refine runs_unlock (locks_setLock object.memory .hashlock (some thread)) nofun ?_
  simp only [Memory.setLock, Memory.store, unlocked _ _ _ open_]
  exact .done _ _

theorem effect_last (open_ : ∀ lock, object.memory.locks lock = none)
    (found : object.memory.heap.lookup fp = some foo) (last : foo.f_count = 1)
    (path : object.memory.heap.Path Foo.f_next (object.memory.fh (HASH foo.f_id))
      (before ++ fp :: after)) :
    Effect thread (.rele fp) object .void (object.removed thread fp foo before) := by
  refine ⟨?_, rfl⟩
  refine runs_lock (open_ _) nofun ?_
  refine runs_getCount found ?_
  refine runs_setCount found ?_
  have none : foo.f_count - 1 = 0 := by omega
  rw [if_pos none]
  let counted := (object.memory.setLock .hashlock (some thread)).store fp
    { foo with f_count := foo.f_count - 1 }
  have sameNext (address : Address) (cell : Foo) (isCell : object.memory.heap.lookup address = some cell) :
      ∃ cell', counted.heap.lookup address = some cell' ∧ cell'.f_next = cell.f_next := by
    by_cases here : address = fp
    · rw [here] at isCell ⊢
      rw [found] at isCell
      cases isCell
      exact ⟨_, lookup_store _ _ _, rfl⟩
    · exact ⟨cell, (Finmap.lookup_insert_of_ne _ here).trans isCell, rfl⟩
  have unlinks : counted.unlink fp = some (cutOut counted (HASH foo.f_id) before foo.f_next) :=
    @unlink_eq _ fp { foo with f_count := foo.f_count - 1 } before after counted (lookup_store _ _ _)
      (path.of_same_next fun address _ => sameNext address)
  refine @runs_call _ _ _ _ _ _ (.unlink fp) _ () _ rfl unlinks ?_
  let cut := cutOut counted (HASH foo.f_id) before foo.f_next
  have cutLocks : cut.locks = counted.locks := cutOut_locks _ _ _ _
  have allocated : cut.heap.lookup fp ≠ Option.none := by
    rw [cutOut_lookup, lookup_store]
    exact Option.some_ne_none _
  refine runs_unlock ?_ nofun ?_
  · exact (congrFun cutLocks _).trans (locks_setLock object.memory .hashlock (some thread))
  have destroyable : (cut.setLock .hashlock Option.none).locks (.f_lock fp) = Option.none := by
    rw [locks_setLock_of_ne f_lock_ne_hashlock, cutLocks]
    exact (@locks_setLock_of_ne _ object.memory _ _ f_lock_ne_hashlock (some thread)).trans (open_ _)
  refine @runs_call _ _ _ _ _ _ (.mutexDestroy fp) _ () _ rfl ⟨allocated, destroyable, rfl⟩ ?_
  refine @runs_call _ _ _ _ _ _ (.free fp) _ () _ rfl ⟨allocated, rfl⟩ ?_
  have same : (cut.setLock .hashlock Option.none).free fp = (object.removed thread fp foo before).memory := by
    apply memory_ext
    · change (cutOut counted _ _ _).fh = (cutOut object.memory _ _ _).fh
      rw [cutOut_fh, cutOut_fh]
      rfl
    · intro address
      by_cases here : address = fp
      · rw [here]
        change Finmap.lookup fp (Finmap.erase fp _) = Finmap.lookup fp (Finmap.erase fp _)
        rw [Finmap.lookup_erase, Finmap.lookup_erase]
      · change Finmap.lookup address (Finmap.erase fp cut.heap) =
          Finmap.lookup address (Finmap.erase fp (cutOut object.memory _ _ _).heap)
        rw [Finmap.lookup_erase_ne here, Finmap.lookup_erase_ne here, cutOut_lookup, cutOut_lookup]
        congr 1
        exact Finmap.lookup_insert_of_ne _ here
    · intro lock
      change Function.update cut.locks _ _ lock = (cutOut object.memory _ _ _).locks lock
      rw [cutLocks, cutOut_locks]
      exact congrFun (unlocked .hashlock (some thread) _ (open_ _)) lock
  rw [same]
  exact .done _ _

end Effects

/-! ## What the operations keep -/

section Sound

variable [Fintype Thread]

/-- How many references to an object there are. -/
def Object.references (object : Object Thread) (fp : Address) : Int :=
  ∑ thread, (object.owned thread fp : Int)

/-- The count of every object is the number of references to it, and an object is there,
on the chain of its id, as long as there are any. -/
structure Sound (object : Object Thread) : Prop where
  chained : ∃ chains, Chained object.memory chains
  unlocked : ∀ lock, object.memory.locks lock = none
  counted : ∀ fp foo, object.memory.heap.lookup fp = some foo →
    foo.f_count = object.references fp ∧ 1 ≤ foo.f_count
  unowned : ∀ fp, object.memory.heap.lookup fp = none → ∀ thread, object.owned thread fp = 0

variable [DecidableEq Thread] {thread : Thread} {object : Object Thread}

theorem references_update (object : Object Thread) (memory : Memory Thread) (thread : Thread)
    (refs : References) (fp : Address) :
    Object.references { memory := memory, owned := Function.update object.owned thread refs } fp =
      object.references fp + ((refs fp : Int) - object.owned thread fp) := by
  have split (owned : Thread → References) : ∑ t, (owned t fp : Int) =
      owned thread fp + ∑ t ∈ Finset.univ.erase thread, (owned t fp : Int) :=
    (Finset.add_sum_erase Finset.univ (fun t => (owned t fp : Int)) (Finset.mem_univ thread)).symm
  have same : ∑ t ∈ Finset.univ.erase thread, (Function.update object.owned thread refs t fp : Int) =
      ∑ t ∈ Finset.univ.erase thread, (object.owned t fp : Int) := by
    apply Finset.sum_congr rfl
    intro t member
    rw [Function.update_of_ne (Finset.ne_of_mem_erase member)]
  rw [Object.references, Object.references, split, split object.owned, same]
  dsimp only
  rw [Function.update_self]
  omega

/-- The references of one thread to one object change, and the count with them. -/
theorem Sound.recounted (sound : Sound object) (found : object.memory.heap.lookup fp = some foo)
    {operation : Operation} {result : Return} {count : Int}
    (others : ∀ other, other ≠ fp →
      (object.owned thread).change operation result other = object.owned thread other)
    (isCount : count = foo.f_count +
      (((object.owned thread).change operation result fp : Int) - object.owned thread fp))
    (positive : 1 ≤ count) :
    Sound (object.recounted thread operation result fp foo count) := by
  rcases sound.chained with ⟨chains, chained⟩
  refine ⟨⟨chains, chained.recount found count⟩, sound.unlocked, ?_, ?_⟩
  · intro other cell isCell
    rw [Object.recounted, references_update]
    change (object.memory.store fp _).heap.lookup other = some cell at isCell
    by_cases same : other = fp
    · rw [same] at isCell ⊢
      rw [lookup_store] at isCell
      cases isCell
      have counted := (sound.counted fp foo found).1
      exact ⟨by dsimp only; omega, positive⟩
    · rw [Memory.store, Finmap.lookup_insert_of_ne _ same] at isCell
      have counted := sound.counted other cell isCell
      rw [others other same]
      exact ⟨by omega, counted.2⟩
  · intro other absent t
    change (object.memory.store fp _).heap.lookup other = none at absent
    have different : other ≠ fp := by
      intro same
      rw [same, lookup_store] at absent
      cases absent
    rw [Memory.store, Finmap.lookup_insert_of_ne _ different] at absent
    change Function.update object.owned thread _ t other = 0
    by_cases mine : t = thread
    · rw [mine, Function.update_self, others other different]
      exact sound.unowned other absent thread
    · rw [Function.update_of_ne mine]
      exact sound.unowned other absent t

theorem Sound.allocated (sound : Sound object) (fresh : object.memory.heap.lookup fp = none)
    (id : Int) : Sound (object.allocated thread id fp) := by
  rcases sound.chained with ⟨chains, chained⟩
  have none := sound.unowned fp fresh
  refine ⟨⟨_, chained.push fresh 1 id⟩, sound.unlocked, ?_, ?_⟩
  · intro other cell isCell
    rw [Object.allocated, references_update]
    change (object.memory.store fp _).heap.lookup other = some cell at isCell
    by_cases same : other = fp
    · rw [same] at isCell ⊢
      rw [lookup_store] at isCell
      cases isCell
      have empty : object.references fp = 0 := by
        apply Finset.sum_eq_zero
        intro t _
        rw [none t]
        rfl
      rw [empty, References.change, Function.update_self, none thread]
      exact ⟨rfl, Int.le_refl 1⟩
    · rw [Memory.store, Finmap.lookup_insert_of_ne _ same] at isCell
      have counted := sound.counted other cell isCell
      rw [References.change, Function.update_of_ne same]
      exact ⟨by omega, counted.2⟩
  · intro other absent t
    change (object.memory.store fp _).heap.lookup other = Option.none at absent
    have different : other ≠ fp := by
      intro same
      rw [same, lookup_store] at absent
      cases absent
    rw [Memory.store, Finmap.lookup_insert_of_ne _ different] at absent
    change Function.update object.owned thread _ t other = 0
    by_cases mine : t = thread
    · rw [mine, Function.update_self, References.change, Function.update_of_ne different]
      exact sound.unowned other absent thread
    · rw [Function.update_of_ne mine]
      exact sound.unowned other absent t

theorem Sound.removed (sound : Sound object) (found : object.memory.heap.lookup fp = some foo)
    (owns : 0 < object.owned thread fp) (last : foo.f_count = 1) {chains : Nat → List Address}
    (chained : Chained object.memory chains)
    (split : chains (HASH foo.f_id) = before ++ fp :: after) :
    Sound (object.removed thread fp foo before) := by
  have total := (sound.counted fp foo found).1
  refine ⟨⟨_, chained.cutOut found split⟩, ?_, ?_, ?_⟩
  · intro lock
    change (cutOut object.memory _ _ _).locks lock = none
    rw [cutOut_locks]
    exact sound.unlocked lock
  · intro other cell isCell
    rw [Object.removed, references_update]
    change Finmap.lookup other (Finmap.erase fp (cutOut object.memory _ _ _).heap) = some cell at isCell
    have different : other ≠ fp := by
      intro same
      rw [same, Finmap.lookup_erase] at isCell
      cases isCell
    rw [Finmap.lookup_erase_ne different, cutOut_lookup] at isCell
    rcases Option.map_eq_some_iff.mp isCell with ⟨old, isOld, rfl⟩
    have counted := sound.counted other old isOld
    rw [References.change, Function.update_of_ne different]
    exact ⟨by dsimp only; omega, counted.2⟩
  · intro other absent t
    change Finmap.lookup other (Finmap.erase fp (cutOut object.memory _ _ _).heap) = none at absent
    by_cases same : other = fp
    · have left : Object.references (object.removed thread fp foo before) fp = 0 := by
        rw [Object.removed, references_update, References.change, Function.update_self]
        omega
      have each := (Finset.sum_eq_zero_iff_of_nonneg fun t _ => Int.natCast_nonneg _).mp left t
        (Finset.mem_univ t)
      rw [same]
      exact Int.natCast_eq_zero.mp each
    · rw [Finmap.lookup_erase_ne same, cutOut_lookup, Option.map_eq_none_iff] at absent
      change Function.update object.owned thread _ t other = 0
      by_cases mine : t = thread
      · rw [mine, Function.update_self, References.change, Function.update_of_ne same]
        exact sound.unowned other absent thread
      · rw [Function.update_of_ne mine]
        exact sound.unowned other absent t

end Sound

end Apue.Threads
