import Mathlib.Data.Finmap
import Mathlib.Data.Finset.Card

/-! # Linked structures in a heap

A heap is a finite map from addresses to cells; an address that has not been
allocated, or has been freed, is not in the map. `walk` is the loop
`for (p = start; p != NULL; p = p->next)`. It is undefined when it reaches an
address outside the heap, and when it never ends. A walk that meets more cells
than the heap holds has met one of them twice, so the number of cells bounds
every walk that ends.
-/

namespace Apue.Foundation

abbrev Address := Nat

abbrev Heap (Cell : Type) := Finmap (fun _ : Address => Cell)

namespace Heap

variable {Cell : Type}

/-- Rewrite an allocated cell. `none` is an access outside the heap. -/
def modify (heap : Heap Cell) (address : Address) (change : Cell → Cell) :
    Option (Heap Cell) :=
  (heap.lookup address).map fun cell => heap.insert address (change cell)

theorem modify_eq {heap : Heap Cell} {address : Address} {cell : Cell} (change : Cell → Cell)
    (found : heap.lookup address = some cell) :
    heap.modify address change = some (heap.insert address (change cell)) := by
  rw [modify, found]
  rfl

/-- Only the rewritten cell is another one. -/
theorem lookup_of_modify {heap changed : Heap Cell} {address : Address} {change : Cell → Cell}
    (modified : heap.modify address change = some changed) (other : Address) :
    changed.lookup other =
      (heap.lookup other).map fun cell => if address = other then change cell else cell := by
  rcases Option.map_eq_some_iff.mp modified with ⟨cell, found, rfl⟩
  by_cases same : other = address
  · subst same
    rw [Finmap.lookup_insert, found, Option.map_some, if_pos rfl]
  · rw [Finmap.lookup_insert_of_ne _ same]
    have different : ¬ address = other := fun equal => same equal.symm
    cases heap.lookup other with
    | none => rfl
    | some cell => rw [Option.map_some, if_neg different]

/-- Where one cell is written, what holds of the new cell and of every other one holds of each. -/
theorem exists_lookup_insert {heap : Heap Cell} {written address : Address} {old new cell : Cell}
    {property : Cell → Prop} (isOld : heap.lookup written = some old)
    (found : heap.lookup address = some cell)
    (changed : address = written → cell = old → property new)
    (kept : address ≠ written → property cell) :
    ∃ after, (heap.insert written new).lookup address = some after ∧ property after := by
  by_cases same : address = written
  · have isCell : cell = old := by
      rw [same, isOld] at found
      exact (Option.some.inj found).symm
    rw [same]
    exact ⟨new, Finmap.lookup_insert _, changed same isCell⟩
  · exact ⟨cell, (Finmap.lookup_insert_of_ne _ same).trans found, kept same⟩

/-- The addresses met by following `next` from `start`. -/
def walk (heap : Heap Cell) (next : Cell → Option Address) :
    Nat → Option Address → Option (List Address)
  | _, none => some []
  | 0, some _ => none
  | fuel + 1, some address => do
      let cell ← heap.lookup address
      let rest ← heap.walk next fuel (next cell)
      return address :: rest

/-- Following `next` from `start` meets exactly `addresses`, then the null
pointer. -/
def Path (heap : Heap Cell) (next : Cell → Option Address) :
    Option Address → List Address → Prop
  | start, [] => start = none
  | start, address :: rest => start = some address ∧
      ∃ cell, heap.lookup address = some cell ∧ heap.Path next (next cell) rest

variable {heap : Heap Cell} {next : Cell → Option Address}

theorem Path.unique {start : Option Address} {left right : List Address}
    (leftPath : heap.Path next start left) (rightPath : heap.Path next start right) :
    left = right := by
  induction left generalizing start right with
  | nil =>
      cases right with
      | nil => rfl
      | cons address rest =>
          have startNull : start = none := leftPath
          rw [startNull] at rightPath
          exact absurd rightPath.1 (by simp)
  | cons address rest induction =>
      obtain ⟨startEqual, cell, found, restPath⟩ := leftPath
      cases right with
      | nil =>
          have startNull : start = none := rightPath
          simp [startNull] at startEqual
      | cons other rest' =>
          obtain ⟨startEqual', cell', found', restPath'⟩ := rightPath
          have sameAddress : address = other := by
            simpa [startEqual] using startEqual'
          subst sameAddress
          have sameCell : cell = cell' := by simpa [found] using found'
          subst sameCell
          rw [induction restPath restPath']

theorem Path.mem_keys {start : Option Address} {addresses : List Address}
    (path : heap.Path next start addresses) :
    ∀ address ∈ addresses, address ∈ heap := by
  induction addresses generalizing start with
  | nil => simp
  | cons head rest induction =>
      obtain ⟨_, cell, found, restPath⟩ := path
      intro address member
      rcases List.mem_cons.mp member with equal | member
      · subst equal
        exact Finmap.lookup_isSome.mp (by simp [found])
      · exact induction restPath address member

/-- The part of a path behind one of its addresses is the path that starts
there. -/
theorem Path.suffix {start : Option Address} {before after : List Address}
    {address : Address}
    (path : heap.Path next start (before ++ address :: after)) :
    heap.Path next (some address) (address :: after) := by
  induction before generalizing start with
  | nil => exact ⟨rfl, path.2⟩
  | cons head rest induction =>
      obtain ⟨_, cell, _, restPath⟩ := path
      exact induction restPath

theorem Path.nodup {start : Option Address} {addresses : List Address}
    (path : heap.Path next start addresses) : addresses.Nodup := by
  induction addresses generalizing start with
  | nil => exact List.nodup_nil
  | cons address rest induction =>
      obtain ⟨startEqual, cell, found, restPath⟩ := path
      refine List.nodup_cons.mpr ⟨fun member => ?_, induction restPath⟩
      -- A second visit would repeat the whole path, which is longer than its own tail.
      obtain ⟨before, after, split⟩ := List.append_of_mem member
      have again : heap.Path next (some address) (address :: after) :=
        Path.suffix (split ▸ restPath)
      have whole : heap.Path next (some address) (address :: rest) :=
        ⟨rfl, cell, found, restPath⟩
      have equal := congrArg List.length (Path.unique again whole)
      rw [split] at equal
      simp at equal
      omega

theorem Path.length_le_card {start : Option Address} {addresses : List Address}
    (path : heap.Path next start addresses) :
    addresses.length ≤ heap.keys.card := by
  rw [← List.toFinset_card_of_nodup path.nodup]
  apply Finset.card_le_card
  intro address member
  exact Finmap.mem_keys.mpr (path.mem_keys address (List.mem_toFinset.mp member))

theorem walk_eq_some_iff {fuel : Nat} {start : Option Address}
    {addresses : List Address} :
    heap.walk next fuel start = some addresses ↔
      heap.Path next start addresses ∧ addresses.length ≤ fuel := by
  induction fuel generalizing start addresses with
  | zero =>
      cases start <;> cases addresses <;> simp [walk, Path]
  | succ fuel induction =>
      cases start with
      | none => cases addresses <;> simp [walk, Path]
      | some address =>
          cases found : heap.lookup address with
          | none =>
              cases addresses with
              | nil => simp [walk, Path, found]
              | cons head rest =>
                  simp only [walk, found, Path]
                  simp only [Option.bind_eq_bind, Option.bind_none, reduceCtorEq, false_iff]
                  rintro ⟨⟨equal, cell, lookup, _⟩, _⟩
                  cases equal
                  simp [found] at lookup
          | some cell =>
              cases addresses with
              | nil => simp [walk, Path, found, Option.bind_eq_some_iff]
              | cons head rest =>
                  constructor
                  · intro walked
                    simp only [walk, found, Option.bind_eq_bind, Option.bind_some,
                      Option.bind_eq_some_iff] at walked
                    obtain ⟨rest', walkedRest, equal⟩ := walked
                    cases equal
                    obtain ⟨restPath, bound⟩ := induction.mp walkedRest
                    exact ⟨⟨rfl, cell, found, restPath⟩, by simpa using bound⟩
                  · rintro ⟨⟨equal, cell', found', restPath⟩, bound⟩
                    cases equal
                    have sameCell : cell = cell' := by simpa [found] using found'
                    subst sameCell
                    have walkedRest := induction.mpr ⟨restPath, by simpa using bound⟩
                    simp [walk, found, walkedRest]

/-- The whole walk from `start`; `none` when it leaves the heap or never ends. -/
def visited (heap : Heap Cell) (next : Cell → Option Address)
    (start : Option Address) : Option (List Address) :=
  heap.walk next heap.keys.card start

theorem visited_eq_some_iff {start : Option Address} {addresses : List Address} :
    heap.visited next start = some addresses ↔ heap.Path next start addresses := by
  rw [visited, walk_eq_some_iff]
  exact ⟨fun both => both.1, fun path => ⟨path, path.length_le_card⟩⟩

/-- A change of the heap that keeps the successor of every cell of a path keeps
the path. -/
theorem Path.of_same_next {other : Heap Cell} {start : Option Address}
    {addresses : List Address} (path : heap.Path next start addresses)
    (same : ∀ address ∈ addresses, ∀ cell, heap.lookup address = some cell →
      ∃ cell', other.lookup address = some cell' ∧ next cell' = next cell) :
    other.Path next start addresses := by
  induction addresses generalizing start with
  | nil => exact path
  | cons address rest induction =>
      obtain ⟨startEqual, cell, found, restPath⟩ := path
      obtain ⟨cell', found', nextEqual⟩ := same address (by simp) cell found
      refine ⟨startEqual, cell', found', ?_⟩
      rw [nextEqual]
      exact induction restPath fun other member => same other (by simp [member])

end Heap

end Apue.Foundation
