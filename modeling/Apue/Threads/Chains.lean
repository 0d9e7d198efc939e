import Apue.Threads.Objects

/-! # The hash chains

What the loops along a chain come to, and what the chains are after a step.
-/

namespace Apue.Threads

open Apue.Foundation

variable {Thread : Type} {heap other : Heap Foo} {start : Option Address} {fp : Address} {foo : Foo}
  {id : Int} {chain before after : List Address} {rounds : Nat}

/-- The first object of a chain with an id. -/
def firstWith (heap : Heap Foo) (id : Int) (chain : List Address) : Option Address :=
  chain.find? fun fp => decide ((heap.lookup fp).map Foo.f_id = some id)

theorem searchFrom_eq (path : heap.Path Foo.f_next start chain) (enough : chain.length ≤ rounds) :
    searchFrom heap id rounds start = some (firstWith heap id chain) := by
  induction chain generalizing start rounds with
  | nil =>
      have ended : start = none := path
      rw [ended]
      cases rounds <;> rfl
  | cons fp chain hypothesis =>
      rcases path with ⟨rfl, foo, found, rest⟩
      cases rounds with
      | zero => exact absurd enough (Nat.not_succ_le_zero _)
      | succ rounds =>
          rw [searchFrom, found, firstWith, List.find?_cons, found]
          by_cases same : foo.f_id = id
          · simp [same]
          · simp [same, hypothesis rest (Nat.le_of_succ_le_succ enough), firstWith]

theorem firstWith_congr
    (same : ∀ fp ∈ chain, (other.lookup fp).map Foo.f_id = (heap.lookup fp).map Foo.f_id) :
    firstWith other id chain = firstWith heap id chain := by
  induction chain with
  | nil => rfl
  | cons fp chain hypothesis =>
      rw [firstWith, firstWith, List.find?_cons, List.find?_cons, same fp List.mem_cons_self]
      have rest := hypothesis fun other member => same other (List.mem_cons_of_mem _ member)
      rw [firstWith, firstWith] at rest
      rw [rest]

theorem firstWith_spec (first : firstWith heap id chain = some fp) :
    fp ∈ chain ∧ ∃ foo, heap.lookup fp = some foo ∧ foo.f_id = id := by
  refine ⟨List.mem_of_find?_eq_some first, ?_⟩
  have holds := List.find?_some first
  rw [decide_eq_true_eq] at holds
  exact Option.map_eq_some_iff.mp holds

theorem path_append (path : heap.Path Foo.f_next start (before ++ fp :: after))
    (found : heap.lookup fp = some foo) :
    heap.Path Foo.f_next foo.f_next after := by
  rcases path.suffix with ⟨_, cell, lookup, rest⟩
  rw [found] at lookup
  cases lookup
  exact rest

/-- The loop stops in front of the object that it looks for. -/
theorem previousFrom_eq {tfp : Address}
    (path : heap.Path Foo.f_next (some tfp) (tfp :: before ++ fp :: after))
    (distinct : (tfp :: before ++ fp :: after).Nodup) (enough : before.length < rounds) :
    previousFrom heap fp rounds tfp = some ((tfp :: before).getLast (List.cons_ne_nil _ _)) := by
  induction before generalizing tfp rounds with
  | nil =>
      cases rounds with
      | zero => exact absurd enough (Nat.not_lt_zero _)
      | succ rounds =>
          rcases path with ⟨_, foo, found, isNext, _⟩
          have stops : ¬ foo.f_next ≠ some fp := Classical.not_not.mpr isNext
          rw [previousFrom, found, Option.bind_eq_bind, Option.bind_some, if_neg stops]
          rfl
  | cons next before hypothesis =>
      cases rounds with
      | zero => exact absurd enough (Nat.not_lt_zero _)
      | succ rounds =>
          rcases path with ⟨_, foo, found, rest⟩
          have isNext : foo.f_next = some next := rest.1
          have different : next ≠ fp := by
            intro same
            subst same
            simp at distinct
          rw [isNext] at rest
          have later := hypothesis rest (List.nodup_cons.mp distinct).2
            (Nat.lt_of_succ_lt_succ enough)
          have goesOn : foo.f_next ≠ some fp := by
            rw [isNext]
            exact fun same => different (Option.some.inj same)
          rw [previousFrom, found, Option.bind_eq_bind, Option.bind_some, if_pos goesOn, isNext,
            List.getLast_cons (List.cons_ne_nil _ _)]
          exact later

/-- What becomes of a memory when an object is taken out of its chain. -/
def cutOut (memory : Memory Thread) (idx : Nat) (before : List Address) (next : Option Address) :
    Memory Thread :=
  match before.getLast? with
  | none => memory.setHead idx next
  | some tfp => match memory.heap.lookup tfp with
    | none => memory
    | some previous => memory.store tfp { previous with f_next := next }

theorem unlink_eq {memory : Memory Thread} (found : memory.heap.lookup fp = some foo)
    (path : memory.heap.Path Foo.f_next (memory.fh (HASH foo.f_id)) (before ++ fp :: after)) :
    memory.unlink fp = some (cutOut memory (HASH foo.f_id) before foo.f_next) := by
  rw [Memory.unlink, found, Option.bind_eq_bind, Option.bind_some]
  cases before with
  | nil =>
      rcases path with ⟨isHead, _⟩
      simp [isHead, cutOut]
  | cons tfp before =>
      have distinct := path.nodup
      have sized := path.length_le_card
      have different : tfp ≠ fp := by
        intro same
        subst same
        simp at distinct
      have isHead : memory.fh (HASH foo.f_id) = some tfp := path.1
      rw [isHead] at path
      have previous := @previousFrom_eq _ _ _ _ memory.heap.keys.card tfp path distinct (by
        simp only [List.length_append, List.length_cons] at sized
        omega)
      simp only [isHead, Option.bind_eq_bind, Option.bind_some, if_neg different, previous]
      rw [cutOut, List.getLast?_eq_getLast_of_ne_nil (List.cons_ne_nil tfp before)]
      have present : ∃ cell, memory.heap.lookup
          ((tfp :: before).getLast (List.cons_ne_nil _ _)) = some cell := by
        apply Option.isSome_iff_exists.mp
        apply Finmap.lookup_isSome.mpr
        apply path.mem_keys
        exact List.mem_append_left _ (List.getLast_mem _)
      rcases present with ⟨cell, isCell⟩
      dsimp only
      rw [Memory.modify, isCell]
      rfl

end Apue.Threads
